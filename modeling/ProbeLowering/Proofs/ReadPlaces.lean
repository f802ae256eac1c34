import ProbeLowering.Proofs.TextLines
import ProbeLowering.Toml.Values

/-!
# Places of what is read

Readers take whole characters from the front of what is left of a text.  So every position
that they note, for a key or a value or a problem, is a boundary between characters of the
text (`Boundary`).  A reader that keeps to the text is composed of readers that do
(`Read.Within`).
-/

namespace ProbeLowering

section Outcomes

variable {ε α β : Type} {bad : ε → Prop} {good : α → Prop} {better : β → Prop}

/-- What holds of a value, or else of the error. -/
def Settles (bad : ε → Prop) (good : α → Prop) : Except ε α → Prop
  | .ok a => good a
  | .error e => bad e

theorem Settles.bind {x : Except ε α} {next : α → Except ε β} (h : Settles bad good x)
    (hnext : ∀ a, good a → Settles bad better (next a)) : Settles bad better (x >>= next) := by
  cases x with
  | error e => exact h
  | ok a => exact hnext a h

theorem Settles.foldlM {f : α → β → Except ε α} {xs : List β}
    (hf : ∀ a, good a → ∀ x ∈ xs, Settles bad good (f a x)) {a : α} (ha : good a) :
    Settles bad good (xs.foldlM f a) := by
  induction xs generalizing a with
  | nil => exact ha
  | cons x rest ih =>
      rw [List.foldlM_cons]
      exact (hf a ha x List.mem_cons_self).bind fun b hb =>
        ih (fun c hc y hy => hf c hc y (List.mem_cons_of_mem x hy)) hb

end Outcomes

namespace Toml

open Read (byteLength)

/-- A character of the text starts at this byte, or the text ends there. -/
def Boundary (text : List Char) (n : Nat) : Prop :=
  ∃ before later, text = before ++ later ∧ byteLength before = n

/-- The source is what is left of the text at its position. -/
def Source.IsIn (text : List Char) (s : Source) : Prop :=
  ∃ before, text = before ++ s.rest ∧ byteLength before = s.position

variable {text : List Char} {α β : Type}

theorem Source.IsIn.boundary {s : Source} (h : s.IsIn text) : Boundary text s.position := by
  obtain ⟨before, htext, hposition⟩ := h
  exact ⟨before, s.rest, htext, hposition⟩

theorem isIn_ofString (text : String) : (Source.ofString text).IsIn text.toList :=
  ⟨[], rfl, rfl⟩

theorem Source.IsIn.drop {s : Source} (h : s.IsIn text) (n : Nat) :
    Source.IsIn text ⟨s.position + byteLength (s.rest.take n), s.rest.drop n⟩ := by
  obtain ⟨before, htext, hposition⟩ := h
  refine ⟨before ++ s.rest.take n, ?_, ?_⟩
  · rw [htext, List.append_assoc, List.take_append_drop]
  · rw [Text.byteLength_append, hposition]

abbrev Checked (P : Nat → Prop) (Q : α → Prop) (x : Except Problem α) : Prop :=
  Settles (fun problem : Problem => P problem.position) Q x

/-! ## Readers -/

namespace Read

/--
Started in the text, the reader ends in it with a value of this kind, or else it has met a
problem at a place in the text.
-/
def Within (text : List Char) (Q : α → Prop) (r : Read α) : Prop :=
  ∀ s, s.IsIn text →
    Checked (Boundary text) (fun (a, s') => Q a ∧ s'.IsIn text) (r.run s)

abbrev Stays (text : List Char) (r : Read α) : Prop := Within text (fun _ => True) r

namespace Within

variable {Q : α → Prop} {R : β → Prop}

theorem pure {a : α} (h : Q a) : Within text Q (pure a : Read α) := fun _ hs => ⟨h, hs⟩

theorem bind {r : Read α} {next : α → Read β} (h : Within text Q r)
    (hnext : ∀ a, Q a → Within text R (next a)) : Within text R (r >>= next) := by
  intro s hs
  exact (h s hs).bind fun (a, s') ⟨ha, hs'⟩ => hnext a ha s' hs'

theorem seq {r : Read α} {next : α → Read β} (h : Stays text r)
    (hnext : ∀ a, Within text R (next a)) : Within text R (r >>= next) :=
  h.bind fun a _ => hnext a

theorem throw {problem : Problem} (h : Boundary text problem.position) :
    Within text Q (throw problem : Read α) := fun _ _ => h

theorem get : Within text (Source.IsIn text) (get : Read Source) := fun _ hs => ⟨hs, hs⟩

theorem set {s : Source} (h : s.IsIn text) : Stays text (set s : Read Unit) := fun _ _ =>
  ⟨trivial, h⟩

theorem ite {c : Prop} [Decidable c] {first second : Read α} (h : Within text Q first)
    (h' : Within text Q second) : Within text Q (if c then first else second) := by
  split
  · exact h
  · exact h'

end Within

theorem within_position : Within text (Boundary text) position :=
  Within.get.bind fun _ hs => .pure hs.boundary

theorem stays_peek? : Stays text peek? := Within.get.bind fun _ _ => .pure trivial

theorem stays_lookahead (n : Nat) : Stays text (lookahead n) :=
  Within.get.bind fun _ _ => .pure trivial

theorem stays_bound : Stays text bound := Within.get.bind fun _ _ => .pure trivial

theorem stays_quotesAhead (quote : Char) : Stays text (quotesAhead quote) :=
  Within.get.bind fun _ _ => .pure trivial

theorem within_fail {Q : α → Prop} (kind : ProblemKind) : Within text Q (fail kind) :=
  within_position.bind fun _ hposition => .throw hposition

theorem within_expected {Q : α → Prop} (what : String) : Within text Q (expected what) :=
  within_fail _

theorem stays_drop (n : Nat) : Stays text (drop n) := fun _ hs => ⟨trivial, hs.drop n⟩

theorem stays_takeWhile (p : Char → Bool) : Stays text (takeWhile p) :=
  Within.get.bind fun _ _ => (stays_drop _).seq fun _ => .pure trivial

theorem stays_literal (mark : String) : Stays text (literal mark) :=
  (stays_lookahead _).seq fun _ => .ite (stays_drop _) (within_expected _)

theorem stays_literal? (mark : String) : Stays text (literal? mark) :=
  (stays_lookahead _).seq fun _ => .ite ((stays_drop _).seq fun _ => .pure trivial) (.pure trivial)

theorem stays_blanks : Stays text blanks := (stays_takeWhile _).seq fun _ => .pure trivial

theorem stays_comment : Stays text comment :=
  stays_peek?.seq fun _ => .ite ((stays_takeWhile _).seq fun _ => .pure trivial) (.pure trivial)

theorem stays_newline? : Stays text newline? :=
  (stays_literal? _).seq fun _ => .ite (.pure trivial) (stays_literal? _)

theorem stays_newline : Stays text newline :=
  stays_newline?.seq fun _ => .ite (within_expected _) (.pure trivial)

theorem stays_lineEnd : Stays text lineEnd :=
  stays_blanks.seq fun _ => stays_comment.seq fun _ => Within.get.bind fun _ _ =>
    .ite (.pure trivial) stays_newline

theorem stays_gapsFrom (n : Nat) : Stays text (gapsFrom n) := by
  induction n with
  | zero => exact .pure trivial
  | succ n ih =>
      refine stays_blanks.seq fun _ => stays_peek?.seq fun c => ?_
      split
      · exact stays_comment.seq fun _ => stays_newline.seq fun _ => ih
      · exact stays_newline.seq fun _ => ih
      · exact stays_newline.seq fun _ => ih
      · exact .pure trivial

theorem stays_gaps : Stays text gaps := stays_bound.seq stays_gapsFrom

theorem stays_codePoint (n : Nat) : Stays text (codePoint n) := by
  refine (stays_lookahead n).seq fun digits => .ite (.ite ?_ ?_) ?_
  · exact (stays_drop n).seq fun _ => .pure trivial
  · exact within_fail _
  · exact within_fail _

theorem stays_escape : Stays text escape := by
  refine stays_peek?.seq fun mark => (stays_drop 1).seq fun _ => ?_
  split
  any_goals exact .pure trivial
  · exact stays_codePoint 4
  · exact stays_codePoint 8
  · exact within_fail _

theorem stays_basicText (n : Nat) : Stays text (basicText n) := by
  induction n with
  | zero => exact within_fail _
  | succ n ih =>
      refine (stays_takeWhile _).seq fun run => (stays_literal? _).seq fun _ => .ite ?_ ?_
      · exact stays_escape.seq fun c => ih.seq fun _ => .pure trivial
      · exact .pure trivial

theorem stays_basicString : Stays text basicString :=
  (stays_literal _).seq fun _ => stays_bound.seq fun n => (stays_basicText n).seq fun _ =>
    (stays_literal _).seq fun _ => .pure trivial

theorem stays_literalString : Stays text literalString :=
  (stays_literal _).seq fun _ => (stays_takeWhile _).seq fun _ =>
    (stays_literal _).seq fun _ => .pure trivial

theorem stays_blankLines (n : Nat) : Stays text (blankLines n) := by
  induction n with
  | zero => exact .pure trivial
  | succ n ih =>
      exact stays_blanks.seq fun _ => stays_newline?.seq fun _ => .ite ih (.pure trivial)

theorem stays_continuation? : Stays text continuation? := by
  refine Within.get.bind fun start hstart => (stays_drop 1).seq fun _ => stays_blanks.seq fun _ =>
    stays_newline?.seq fun _ => .ite ?_ ?_
  · exact stays_bound.seq fun n => (stays_blankLines n).seq fun _ => .pure trivial
  · exact (Within.set hstart).seq fun _ => .pure trivial

theorem stays_multilineText (quote : Char) {piece : Read (List Char)} (h : Stays text piece)
    (n : Nat) : Stays text (multilineText quote piece n) := by
  induction n with
  | zero => exact within_fail _
  | succ n ih =>
      refine (stays_quotesAhead quote).seq fun count => ?_
      split
      · exact h.seq fun _ => ih.seq fun _ => .pure trivial
      · exact (stays_quotesAhead quote).seq fun _ => (stays_drop _).seq fun _ =>
          ih.seq fun _ => .pure trivial
      · exact (stays_quotesAhead quote).seq fun _ => (stays_drop _).seq fun _ =>
          ih.seq fun _ => .pure trivial
      · exact (stays_drop _).seq fun _ => .pure trivial

theorem stays_basicPiece : Stays text basicPiece := by
  refine stays_peek?.seq fun c => ?_
  split
  · exact within_fail _
  · exact stays_continuation?.seq fun _ => .ite (.pure trivial)
      ((stays_drop 1).seq fun _ => stays_escape.seq fun _ => .pure trivial)
  · exact .ite (stays_takeWhile _) (stays_newline.seq fun _ => .pure trivial)

theorem stays_literalPiece : Stays text literalPiece := by
  refine stays_peek?.seq fun c => ?_
  split
  · exact within_fail _
  · exact .ite (stays_takeWhile _) (stays_newline.seq fun _ => .pure trivial)

theorem stays_multilineString (quote : Char) {piece : Read (List Char)} (h : Stays text piece) :
    Stays text (multilineString quote piece) :=
  (stays_drop 3).seq fun _ => stays_newline?.seq fun _ => stays_bound.seq fun n =>
    (stays_multilineText quote h n).seq fun _ => .pure trivial

theorem stays_string : Stays text string := by
  refine (stays_lookahead 3).seq fun marks => ?_
  split
  · exact stays_multilineString _ stays_basicPiece
  · exact stays_multilineString _ stays_literalPiece
  · exact stays_literalString
  · exact stays_basicString

end Read

end Toml

end ProbeLowering
