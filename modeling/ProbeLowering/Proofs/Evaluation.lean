import Mathlib.Data.List.Induction
import ProbeLowering.Physical

/-!
# Evaluation of probes

The variables of a probe are evaluated in order, each from the values of the
ones before it.  Evaluating more variables keeps the values that are there
(`lookup_evaluate_of_prefix`), so a variable that reads a location while the
probe is built still reads it when the probe is complete (`Reads.of_prefix`).
-/

namespace ProbeLowering

open Physical

structure Machine where
  stackPointer : Int
  returnRegister : Int
  /-- Word at each address. -/
  memory : Int → Int
  builtin : Builtin → Int
  constant : ScalarType → String → Int
  /-- Address of the entry of a map under a key. -/
  entry : String → Int → Int
  /-- Field of the record at an address. -/
  field : Int → String → Int

abbrev Values := List (String × Int)

namespace Machine

variable {m : Machine} {vs ws : List Variable} {v : Variable} {name : String}
  {x : Int}

def sourceValue? (m : Machine) (values : Values) (type : ScalarType) :
    ScalarSource → Option Int
  | .register .sp => some m.stackPointer
  | .register .rc => some m.returnRegister
  | .builtin helper => some (m.builtin helper)
  | .memory base offset =>
      (values.lookup base).map fun start => m.memory (start + offset)
  | .constant literal => some (m.constant type literal)
  | .binary .sub lhs rhs => do
      let minuend ← values.lookup lhs
      let subtrahend ← values.lookup rhs
      pure (minuend - subtrahend)

def value? (m : Machine) (values : Values) : Variable → Option Int
  | .scalar v => m.sourceValue? values v.type v.source
  | .map v => (values.lookup v.keyVariable).map (m.entry v.mapName)
  | .member v => (values.lookup v.structBase).map (m.field · v.field)
  | .struct _ => none

def declare (m : Machine) (values : Values) (v : Variable) : Values :=
  match m.value? values v with
  | some x => values ++ [(v.name, x)]
  | none => values

def evaluate (m : Machine) (vars : List Variable) : Values :=
  vars.foldl m.declare []

theorem evaluate_concat (m : Machine) (vs : List Variable) (v : Variable) :
    m.evaluate (vs ++ [v]) = m.declare (m.evaluate vs) v := by
  simp [evaluate]

theorem prefix_declare (m : Machine) (values : Values) (v : Variable) :
    values <+: m.declare values v := by
  unfold declare
  split
  · exact List.prefix_append _ _
  · exact List.prefix_refl _

theorem prefix_evaluate (h : vs <+: ws) : m.evaluate vs <+: m.evaluate ws := by
  obtain ⟨added, rfl⟩ := h
  induction added generalizing vs with
  | nil => simp
  | cons v rest ih =>
      have hfirst : m.evaluate vs <+: m.evaluate (vs ++ [v]) := by
        rw [evaluate_concat]
        exact m.prefix_declare _ v
      have hrest : m.evaluate (vs ++ [v]) <+: m.evaluate (vs ++ [v] ++ rest) := ih
      rw [List.append_assoc, List.singleton_append] at hrest
      exact hfirst.trans hrest

theorem lookup_evaluate_of_prefix (h : vs <+: ws)
    (hx : (m.evaluate vs).lookup name = some x) :
    (m.evaluate ws).lookup name = some x :=
  List.IsPrefix.lookup_eq_some (prefix_evaluate h) hx

theorem mem_names_of_mem_evaluate (h : name ∈ (m.evaluate vs).map Prod.fst) :
    name ∈ vs.map Variable.name := by
  induction vs using List.reverseRecOn with
  | nil => simp [evaluate] at h
  | append_singleton vs v ih =>
      rw [evaluate_concat, declare] at h
      rw [List.map_append, List.mem_append]
      split at h
      next x hx =>
        rw [List.map_append, List.mem_append] at h
        exact h.imp ih (by simp)
      next => exact .inl (ih h)

theorem lookup_evaluate_concat (hfresh : v.name ∉ vs.map Variable.name)
    (hx : m.value? (m.evaluate vs) v = some x) :
    (m.evaluate (vs ++ [v])).lookup v.name = some x := by
  rw [evaluate_concat, declare, hx]
  refine List.lookup_eq_some_iff.mpr ⟨m.evaluate vs, [], rfl, ?_⟩
  intro entry hentry
  have hname := mem_names_of_mem_evaluate (List.mem_map_of_mem (f := Prod.fst) hentry)
  have hne : v.name ≠ entry.1 := fun heq => hfresh (heq ▸ hname)
  simpa using hne

/-- The variable `name` of the probe loads a value of `type` from `address`. -/
structure Reads (m : Machine) (probe : Probe) (name : String) (address : Int)
    (type : ScalarType) : Prop where
  source : ∃ base offset start,
    probe.findVar? name = some (.scalar ⟨name, type, .memory base offset⟩) ∧
    (m.evaluate probe.vars).lookup base = some start ∧ start + offset = address
  value : (m.evaluate probe.vars).lookup name = some (m.memory address)

theorem Reads.of_prefix {probe next : Probe} (h : probe.vars <+: next.vars)
    {address : Int} {type : ScalarType} (hreads : m.Reads probe name address type) :
    m.Reads next name address type := by
  obtain ⟨⟨base, offset, start, hfind, hstart, haddress⟩, hvalue⟩ := hreads
  refine ⟨⟨base, offset, start, ?_, lookup_evaluate_of_prefix h hstart, haddress⟩, ?_⟩
  · exact List.IsPrefix.find?_eq_some h hfind
  · exact lookup_evaluate_of_prefix h hvalue

theorem reads_of_concat {probe next : Probe} {type : ScalarType} {base : String}
    {offset start : Int}
    (hvars : next.vars =
      probe.vars ++ [.scalar ⟨name, type, .memory base offset⟩])
    (hfresh : name ∉ probe.vars.map Variable.name)
    (hstart : (m.evaluate probe.vars).lookup base = some start) :
    m.Reads next name (start + offset) type := by
  have hvalue : m.value? (m.evaluate probe.vars)
      (.scalar ⟨name, type, .memory base offset⟩) = some (m.memory (start + offset)) := by
    simp [value?, sourceValue?, hstart]
  have hlookup := lookup_evaluate_concat (v := .scalar ⟨name, type, .memory base offset⟩)
    hfresh hvalue
  rw [← hvars] at hlookup
  refine ⟨⟨base, offset, start, ?_, ?_, rfl⟩, hlookup⟩
  · have hnone : probe.vars.find? (·.name == name) = none := by
      rw [List.find?_eq_none]
      intro found hfound
      have hne : found.name ≠ name := fun heq =>
        hfresh (heq ▸ List.mem_map_of_mem hfound)
      simpa using hne
    rw [Probe.findVar?, hvars, List.find?_append, hnone]
    simp [Variable.name]
  · exact lookup_evaluate_of_prefix ⟨_, hvars.symm⟩ hstart

end Machine

end ProbeLowering
