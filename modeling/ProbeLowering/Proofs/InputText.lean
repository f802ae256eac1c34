import ProbeLowering.Document.DebugInfo
import ProbeLowering.Document.Logical
import ProbeLowering.Proofs.Documents

/-!
# The texts of what is lowered

A deployment and recorded debug facts are read back from the tree that they are encoded
as, and from the text of that tree in each layout (`inputs_read_back`).  What a reader
fills in for absent fields never shows, because every field that a reader has a default
for is written.  The entries of a map are written in the order of their names, so adding
them one after the other to the empty map gives the map again.
-/

namespace ProbeLowering

namespace NameMap

variable {α : Type}

theorem insertEntry_of_lt {entries : List (String × α)} {name : String}
    (h : ∀ e ∈ entries, e.1 < name) (value : α) :
    insertEntry name value entries = entries ++ [(name, value)] := by
  induction entries with
  | nil => rfl
  | cons first rest ih =>
      rw [List.forall_mem_cons] at h
      have hne : name ≠ first.1 := fun heq => String.lt_irrefl name (heq ▸ h.1)
      rw [insertEntry, if_neg (String.lt_asymm h.1), if_neg hne, ih h.2, List.cons_append]

theorem entries_foldl_insert {later : List (String × α)} {m : NameMap α}
    (h : (m.entries ++ later).Pairwise (fun a b => a.1 < b.1)) :
    (later.foldl (fun m e => m.insert e.1 e.2) m).entries = m.entries ++ later := by
  induction later generalizing m with
  | nil => simp
  | cons first rest ih =>
      have hlast : ∀ e ∈ m.entries, e.1 < first.1 := fun e he =>
        (List.pairwise_append.mp h).2.2 e he first List.mem_cons_self
      have hinsert : (m.insert first.1 first.2).entries = m.entries ++ [first] :=
        insertEntry_of_lt hlast first.2
      rw [List.foldl_cons, ih (by simpa [hinsert] using h), hinsert]
      simp

theorem eq_of_entries {m m' : NameMap α} (h : m.entries = m'.entries) : m = m' := by
  cases m
  cases m'
  cases h
  rfl

theorem ofList_toList (m : NameMap α) : ofList m.toList = m :=
  eq_of_entries (entries_foldl_insert (m := empty) m.increasing)

def Forall (p : α → Prop) (m : NameMap α) : Prop :=
  ∀ e ∈ m.toList, p e.2

instance (p : α → Prop) [DecidablePred p] (m : NameMap α) : Decidable (m.Forall p) :=
  inferInstanceAs (Decidable (∀ e ∈ m.toList, p e.2))

end NameMap

namespace Json

section Maps

variable {α : Type} {decode? : Json → Option α} {encode : α → Json}

theorem map?_ofMap {m : NameMap α} (h : m.Forall fun x => decode? (encode x) = some x) :
    map? decode? (ofMap encode m) = some m := by
  have hmembers : ∀ entries : List (String × α),
      (∀ e ∈ entries, decode? (encode e.2) = some e.2) →
        (entries.map fun e => (e.1, encode e.2)).mapM
          (fun member : String × Json => (decode? member.2).map (member.1, ·)) =
            some entries := by
    intro entries hentries
    induction entries with
    | nil => rfl
    | cons first rest ih =>
        rw [List.forall_mem_cons] at hentries
        simp [hentries.1, ih hentries.2]
  calc map? decode? (ofMap encode m) = (some m.toList).map NameMap.ofList :=
        congrArg (Option.map NameMap.ofList) (hmembers m.toList h)
    _ = some m := congrArg some m.ofList_toList

@[simp] theorem readable_ofMap {m : NameMap α} (h : ∀ x, (encode x).readable = true) :
    (ofMap encode m).readable = true := by
  simp [ofMap, h]

end Maps

def ReadsBack {α : Type} (decode? : Json → Option α) (tree : Json) (x : α) : Prop :=
  decode? tree = some x ∧
    ∀ layout, (parse? (String.ofList (write layout tree))).bind decode? = some x

theorem readsBack {α : Type} {decode? : Json → Option α} {tree : Json} {x : α}
    (hreadable : tree.readable = true) (hdecode : decode? tree = some x) :
    ReadsBack decode? tree x := by
  refine ⟨hdecode, fun layout => ?_⟩
  have hparse := parse?_write hreadable layout (List.forall_mem_nil (isBlank · = true))
  rw [List.append_nil] at hparse
  rw [hparse, Option.bind_some, hdecode]

end Json

open Json

/-! ## Deployments -/

namespace Logical

namespace Output

@[simp] theorem decode?_encode (o : Output) : decode? o.encode = some o := by
  simp [decode?, encode]

@[simp] theorem readable_encode (o : Output) : o.encode.readable = true := by
  simp [encode]

end Output

namespace Constant

@[simp] theorem decode?_encode (c : Constant) : decode? c.encode = some c := by
  simp [decode?, encode]

@[simp] theorem readable_encode (c : Constant) : c.encode.readable = true := by
  simp [encode]

end Constant

namespace Argument

@[simp] theorem decode?_encode (a : Argument) : decode? a.encode = some a := by
  simp [decode?, encode]

@[simp] theorem readable_encode (a : Argument) : a.encode.readable = true := by
  simp [encode]

end Argument

namespace ReturnValue

@[simp] theorem decode?_encode (r : ReturnValue) : decode? r.encode = some r := by
  simp [decode?, encode]

@[simp] theorem readable_encode (r : ReturnValue) : r.encode.readable = true := by
  simp [encode]

end ReturnValue

namespace MapValue

@[simp] theorem decode?_encode (v : MapValue) : decode? v.encode = some v := by
  simp [decode?, encode]

@[simp] theorem readable_encode (v : MapValue) : v.encode.readable = true := by
  simp [encode]

end MapValue

namespace StashAction

@[simp] theorem decode?_encode (a : StashAction) : decode? a.encode = some a := by
  simp [decode?, encode]

@[simp] theorem readable_encode (a : StashAction) : a.encode.readable = true := by
  simp [encode]

end StashAction

namespace DeleteAction

@[simp] theorem decode?_encode (a : DeleteAction) : decode? a.encode = some a := by
  simp [decode?, encode]

@[simp] theorem readable_encode (a : DeleteAction) : a.encode.readable = true := by
  simp [encode]

end DeleteAction

namespace OutputAction

@[simp] theorem decode?_encode (a : OutputAction) : decode? a.encode = some a := by
  simp [decode?, encode]

@[simp] theorem readable_encode (a : OutputAction) : a.encode.readable = true := by
  simp [encode]

end OutputAction

namespace Probe

theorem encode_eq_written (p : Probe) : p.encode = .object (written
    [("name", some (.string p.name)), ("tracepoint", some p.tracepoint.encode),
      ("consts", some (.array (p.consts.map Constant.encode))),
      ("args", some (.array (p.args.map Argument.encode))),
      ("ret_vals", some (.array (p.retVals.map ReturnValue.encode))),
      ("map_vals", some (.array (p.mapVals.map MapValue.encode))),
      ("function_latency", p.latency.map FunctionLatency.encode),
      ("map_stash_actions", some (.array (p.stashes.map StashAction.encode))),
      ("map_delete_actions", some (.array (p.deletes.map DeleteAction.encode))),
      ("output_actions", some (.array (p.outputs.map OutputAction.encode))),
      ("printks", some (.array (p.printks.map Printk.encode)))]) := by
  obtain ⟨name, tracepoint, consts, args, retVals, mapVals, _ | latency, stashes, deletes,
    outputs, printks⟩ := p <;> rfl

@[simp] theorem decode?_encode (p : Probe) : decode? p.encode = some p := by
  have hlatency := optional?_map FunctionLatency.decode?_encode (by rintro _ ⟨⟩) p.latency
  simp [decode?, encode_eq_written, fields?_written, hlatency]

@[simp] theorem readable_encode (p : Probe) : p.encode.readable = true := by
  simp [encode]

end Probe

namespace Program

@[simp] theorem decode?_encode (p : Program) : decode? p.encode = some p := by
  simp [decode?, encode]

@[simp] theorem readable_encode (p : Program) : p.encode.readable = true := by
  simp [encode]

end Program

namespace Deployment

@[simp] theorem decodeTracepoint?_encode (p : Program) :
    decodeTracepoint? (encodeTracepoint p) = some p := by
  simp [decodeTracepoint?, encodeTracepoint]

@[simp] theorem decode?_encode (d : Deployment) : decode? d.encode = some d := by
  simp [decode?, encode]

@[simp] theorem readable_encode (d : Deployment) : d.encode.readable = true := by
  simp [encode, encodeTracepoint]

end Deployment

end Logical

/-! ## Debug facts -/

namespace DebugInfo

namespace VarKind

@[simp] theorem decode?_encode (k : VarKind) : decode? k.encode = some k :=
  named?_map (by decide) (by cases k <;> decide)

@[simp] theorem readable_encode (k : VarKind) : k.encode.readable = true := rfl

end VarKind

namespace ArgInfo

theorem decode?_encode {i : ArgInfo} (h : FitsInt64 i.offset) : decode? i.encode = some i := by
  simp [decode?, encode, int64?_int h]

@[simp] theorem readable_encode (i : ArgInfo) : i.encode.readable = true := by
  simp [encode]

end ArgInfo

namespace MemberInfo

theorem decode?_encode {i : MemberInfo} (h : FitsInt64 i.offset) :
    decode? i.encode = some i := by
  simp [decode?, encode, int64?_int h]

@[simp] theorem readable_encode (i : MemberInfo) : i.encode.readable = true := by
  simp [encode]

end MemberInfo

namespace RetValInfo

@[simp] theorem decode?_encode (i : RetValInfo) : decode? i.encode = some i := by
  simp [decode?, encode]

@[simp] theorem readable_encode (i : RetValInfo) : i.encode.readable = true := by
  simp [encode]

end RetValInfo

namespace FunctionFacts

def OffsetsFit (f : FunctionFacts) : Prop :=
  f.args.Forall fun info => FitsInt64 info.offset

instance : DecidablePred OffsetsFit := fun f =>
  inferInstanceAs (Decidable (f.args.Forall fun info => FitsInt64 info.offset))

theorem decode?_encode {f : FunctionFacts} (h : f.OffsetsFit) : decode? f.encode = some f := by
  have hargs := map?_ofMap fun e he => ArgInfo.decode?_encode (h e he)
  simp [decode?, encode, hargs]

@[simp] theorem readable_encode (f : FunctionFacts) : f.encode.readable = true := by
  simp [encode]

end FunctionFacts

namespace Snapshot

def OffsetsFit (s : Snapshot) : Prop :=
  s.functions.Forall FunctionFacts.OffsetsFit ∧
    s.structs.Forall fun members => members.Forall fun info => FitsInt64 info.offset

instance : DecidablePred OffsetsFit := fun s =>
  inferInstanceAs (Decidable (s.functions.Forall FunctionFacts.OffsetsFit ∧
    s.structs.Forall fun members => members.Forall fun info => FitsInt64 info.offset))

theorem decode?_encode {s : Snapshot} (h : s.OffsetsFit) : decode? s.encode = some s := by
  have hfunctions := map?_ofMap fun e he => FunctionFacts.decode?_encode (h.1 e he)
  have hstructs := map?_ofMap fun e he =>
    map?_ofMap fun e' he' => MemberInfo.decode?_encode (h.2 e he e' he')
  simp [decode?, encode, hfunctions, hstructs]

@[simp] theorem readable_encode (s : Snapshot) : s.encode.readable = true := by
  simp [encode]

end Snapshot

end DebugInfo

open DebugInfo (Snapshot)

/--
Every deployment is read back from what it is encoded as, and so are recorded facts,
whose offsets range over the integers of 64 bits.
-/
theorem inputs_read_back :
    (∀ d : Logical.Deployment, ReadsBack Logical.Deployment.decode? d.encode d) ∧
      ∀ s : Snapshot, s.OffsetsFit → ReadsBack Snapshot.decode? s.encode s :=
  ⟨fun d => readsBack d.readable_encode d.decode?_encode,
    fun s hs => readsBack s.readable_encode (Snapshot.decode?_encode hs)⟩

/-- Every kind of request and option, preset map types, and text to be escaped. -/
def deploymentOfEveryKind : Logical.Deployment where
  target := ⟨"/opt/\\srv \"a\"\t\x01/λ😀"⟩
  tracepoints := [{}, {
    language := .cpp
    maps := [⟨"open", none, none⟩, ⟨"settled", some .uint64, some "pair"⟩]
    outputs := [⟨"events", ["first", ""]⟩, ⟨"none", []⟩]
    probes := [
      { name := "enter", tracepoint := ⟨"ns::f(int, \"x\")", .entry⟩
        consts := [⟨"one", .longLong, "null\n"⟩]
        args := [⟨"a", "x.y"⟩]
        stashes := [⟨"settled", .tgidPid, ["a", "one"], ⟨.equal, ["a", "one"]⟩⟩,
          ⟨"open", .tgid, [], {}⟩] },
      { name := "leave", tracepoint := ⟨"ns::f(int, \"x\")", .onReturn⟩
        retVals := [⟨"r", "$0"⟩]
        mapVals := [⟨"settled", .tgidPid, ["first"]⟩]
        latency := some ⟨"lat"⟩
        deletes := [⟨"settled", .goid⟩]
        outputs := [⟨"events", ["first", "r"]⟩]
        printks := [.text "100%", .scalar "first"] }] }]

def snapshotOfEveryKind : Snapshot where
  functions := .ofList [
    ("ns::f(int, \"x\")", ⟨.ofList [("x", ⟨0x7fffffffffffffff, .pointer, "conn *"⟩),
      ("", ⟨-0x8000000000000000, .struct, "λ"⟩)], ⟨.base, "long int"⟩⟩),
    ("", {})]
  structs := .ofList [("conn", .ofList [("next", ⟨-1, .void, ""⟩)]), ("a\nb", {})]

theorem inputs_read_back_ofEveryKind :
    ReadsBack Logical.Deployment.decode? deploymentOfEveryKind.encode deploymentOfEveryKind ∧
      snapshotOfEveryKind.OffsetsFit ∧
      ReadsBack Snapshot.decode? snapshotOfEveryKind.encode snapshotOfEveryKind :=
  have h : snapshotOfEveryKind.OffsetsFit := by decide +kernel
  ⟨inputs_read_back.1 deploymentOfEveryKind, h, inputs_read_back.2 snapshotOfEveryKind h⟩

end ProbeLowering
