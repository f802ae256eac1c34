import Mathlib.Data.List.DropRight
import Mathlib.Data.List.TakeDrop
import Mathlib.Tactic.SplitIfs
import ProbeLowering.Text.Lines
import ProbeLowering.Toml.Source

/-!
# Lines of a text

A text is split at a place into the lines before that of the place, what leads up to the
place on its own line, and what follows.  The place is then found by counting line feeds and
bytes (`placeOf_split`), and its line by its number (`firstLine_of_split`).
-/

namespace ProbeLowering.Text

open Toml.Read (byteLength)

theorem foldl_byteLength (n : Nat) (cs : List Char) :
    cs.foldl (fun n c => n + c.utf8Size) n = n + byteLength cs := by
  induction cs generalizing n with
  | nil => rfl
  | cons c cs ih =>
      have hbytes : byteLength (c :: cs) = 0 + c.utf8Size + byteLength cs := ih _
      rw [List.foldl_cons, ih, hbytes, Nat.zero_add, Nat.add_assoc]

@[simp] theorem byteLength_nil : byteLength [] = 0 := rfl

@[simp] theorem byteLength_cons (c : Char) (cs : List Char) :
    byteLength (c :: cs) = c.utf8Size + byteLength cs := by
  rw [byteLength, List.foldl_cons, foldl_byteLength, Nat.zero_add]

@[simp] theorem byteLength_append (cs cs' : List Char) :
    byteLength (cs ++ cs') = byteLength cs + byteLength cs' := by
  rw [byteLength, List.foldl_append, foldl_byteLength]
  rfl

theorem utf8ByteSize_ofList (cs : List Char) :
    (String.ofList cs).utf8ByteSize = byteLength cs := by
  induction cs with
  | nil => rfl
  | cons c cs ih =>
      rw [String.ofList_cons, String.utf8ByteSize_append, String.utf8ByteSize_singleton, ih,
        byteLength_cons]

theorem length_le_byteLength (cs : List Char) : cs.length ≤ byteLength cs := by
  induction cs with
  | nil => exact Nat.le_refl 0
  | cons c cs ih =>
      have hpos := c.utf8Size_pos
      rw [byteLength_cons, List.length_cons]
      omega

theorem byteLength_eq_length_iff (cs : List Char) :
    byteLength cs = cs.length ↔ ∀ c ∈ cs, c.toNat < 0x80 := by
  induction cs with
  | nil => simp
  | cons c cs ih =>
      have hpos := c.utf8Size_pos
      have hrest := length_le_byteLength cs
      have hc : c.utf8Size = 1 ↔ c.toNat < 0x80 := by
        rw [Char.utf8Size_eq_one_iff, UInt32.le_iff_toNat_le]
        exact Nat.lt_succ_iff.symm
      have hsplit : byteLength (c :: cs) = (c :: cs).length ↔
          c.utf8Size = 1 ∧ byteLength cs = cs.length := by
        rw [byteLength_cons, List.length_cons]
        omega
      rw [List.forall_mem_cons]
      exact hsplit.trans (and_congr hc ih)

def StartsLine (earlier : List Char) : Prop := ∀ c ∈ earlier.getLast?, c = '\n'

theorem startsLine_nil : StartsLine [] := nofun

/-- The text up to its first line ending: a line feed, or a carriage return before one. -/
inductive FirstLine : List Char → List Char → Prop
  | last {line : List Char} : '\n' ∉ line → FirstLine line line
  | fed {line : List Char} (rest : List Char) : '\n' ∉ line → line.getLast? ≠ some '\r' →
      FirstLine (line ++ '\n' :: rest) line
  | returned {line : List Char} (rest : List Char) : '\n' ∉ line →
      FirstLine (line ++ '\r' :: '\n' :: rest) line

/-- By induction from the end: what leads up to a place starts after the last line feed. -/
theorem exists_lead (before : List Char) :
    ∃ earlier lead, before = earlier ++ lead ∧ StartsLine earlier ∧ '\n' ∉ lead := by
  induction before using List.reverseRecOn with
  | nil => exact ⟨[], [], rfl, startsLine_nil, List.not_mem_nil⟩
  | append_singleton before c ih =>
      by_cases hc : c = '\n'
      · exact ⟨before ++ [c], [], by simp, by simp [StartsLine, hc], List.not_mem_nil⟩
      · obtain ⟨earlier, lead, rfl, hearlier, hlead⟩ := ih
        exact ⟨earlier, lead ++ [c], by simp, hearlier, by simp [hlead, Ne.symm hc]⟩

def Place.next (place : Place) (c : Char) : Place :=
  if c = '\n' then ⟨place.line + 1, 0⟩ else ⟨place.line, place.column + c.utf8Size⟩

theorem placeFrom_append (place : Place) (before later : List Char) :
    placeFrom place (before ++ later) (byteLength before) = before.foldl Place.next place := by
  induction before generalizing place with
  | nil => cases later <;> rfl
  | cons c before ih =>
      have hpos := c.utf8Size_pos
      rw [List.cons_append, byteLength_cons, List.foldl_cons, ← ih, placeFrom, Place.next]
      · by_cases hc : c = '\n'
        · rw [if_pos hc, if_pos hc, hc]
          simp [Char.utf8Size]
        · rw [if_neg hc, if_neg hc, Nat.add_sub_cancel_left]
      · omega

theorem line_foldl_next (cs : List Char) (place : Place) :
    (cs.foldl Place.next place).line = place.line + cs.count '\n' := by
  induction cs generalizing place with
  | nil => rfl
  | cons c cs ih =>
      rw [List.foldl_cons, ih, List.count_cons, Place.next]
      by_cases hc : c = '\n'
      · simp [hc]
        omega
      · simp [hc]

theorem column_foldl_next {cs : List Char} (h : '\n' ∉ cs) (place : Place) :
    (cs.foldl Place.next place).column = place.column + byteLength cs := by
  induction cs generalizing place with
  | nil => rfl
  | cons c cs ih =>
      obtain ⟨hc, hcs⟩ := not_or.mp (mt List.mem_cons.mpr h)
      rw [List.foldl_cons, ih hcs, Place.next, if_neg (Ne.symm hc), byteLength_cons, Nat.add_assoc]

theorem column_of_startsLine {earlier : List Char} (h : StartsLine earlier) :
    (earlier.foldl Place.next ⟨0, 0⟩).column = 0 := by
  rcases List.eq_nil_or_concat earlier with rfl | ⟨before, c, rfl⟩
  · rfl
  · obtain rfl : c = '\n' := h c (by simp)
    simp [Place.next]

section Split

variable {earlier lead : List Char}

theorem placeOf_split (hearlier : StartsLine earlier) (hlead : '\n' ∉ lead) (later : List Char) :
    placeOf (String.ofList (earlier ++ lead ++ later)) (byteLength (earlier ++ lead)) =
      ⟨earlier.count '\n', byteLength lead⟩ := by
  rw [placeOf, String.toList_ofList, placeFrom_append]
  have hline := line_foldl_next (earlier ++ lead) ⟨0, 0⟩
  have hcolumn := column_foldl_next hlead (earlier.foldl Place.next ⟨0, 0⟩)
  rw [column_of_startsLine hearlier, ← List.foldl_append, Nat.zero_add] at hcolumn
  rw [List.count_append, List.count_eq_zero.mpr hlead, Nat.zero_add, Nat.add_zero] at hline
  exact Place.mk.injEq .. ▸ ⟨hline, hcolumn⟩

theorem breakLine_of_not_mem {line : List Char} (h : '\n' ∉ line) :
    breakLine line = (line, none) := by
  have hall : ∀ c ∈ line, (c != '\n') = true := by
    intro c hc
    simpa using ne_of_mem_of_not_mem hc h
  simp [breakLine, List.span_eq_takeWhile_dropWhile, List.takeWhile_eq_self_iff.mpr hall,
    List.dropWhile_eq_nil_iff.mpr hall]

theorem breakLine_append {line : List Char} (h : '\n' ∉ line) (rest : List Char) :
    breakLine (line ++ '\n' :: rest) = (line, some rest) := by
  have hall : ∀ c ∈ line, (c != '\n') = true := by
    intro c hc
    simpa using ne_of_mem_of_not_mem hc h
  simp [breakLine, List.span_eq_takeWhile_dropWhile, List.takeWhile_append_of_pos hall,
    List.dropWhile_append_of_pos hall]

theorem firstLine_lineAt_zero (cs : List Char) : FirstLine cs (lineAt cs 0) := by
  by_cases hcs : '\n' ∈ cs
  · obtain ⟨line, rest, rfl, hline⟩ := List.eq_append_cons_of_mem hcs
    rw [lineAt, breakLine_append hline]
    change FirstLine _ (dropReturn line)
    unfold dropReturn
    split_ifs with hreturn
    · obtain ⟨line, rfl⟩ := List.getLast?_eq_some_iff.mp hreturn
      rw [List.dropLast_concat, List.append_assoc]
      exact .returned rest fun hmem => hline (List.mem_append_left _ hmem)
    · exact .fed rest hline hreturn
  · rw [lineAt, breakLine_of_not_mem hcs]
    exact .last hcs

theorem lineAt_succ {line : List Char} (h : '\n' ∉ line) (rest : List Char) (n : Nat) :
    lineAt (line ++ '\n' :: rest) (n + 1) = lineAt rest n := by
  rw [lineAt, breakLine_append h]

theorem lineAt_append (hearlier : StartsLine earlier) (cs : List Char) :
    lineAt (earlier ++ cs) (earlier.count '\n') = lineAt cs 0 := by
  generalize hn : earlier.count '\n' = n
  induction n generalizing earlier with
  | zero =>
      have hnone := List.count_eq_zero.mp hn
      rcases List.eq_nil_or_concat earlier with rfl | ⟨before, c, rfl⟩
      · rfl
      · exact absurd (by simp [hearlier c (by simp)]) hnone
  | succ n ih =>
      have hmem : '\n' ∈ earlier := List.count_pos_iff.mp (by omega)
      obtain ⟨line, rest, rfl, hline⟩ := List.eq_append_cons_of_mem hmem
      have hrest : StartsLine rest := fun c hc => hearlier c (by
        simp only [Option.mem_def] at hc ⊢
        simp [List.getLast?_append, List.getLast?_cons, hc])
      rw [List.count_append, List.count_eq_zero.mpr hline, List.count_cons_self] at hn
      rw [List.append_assoc, List.cons_append, lineAt_succ hline]
      exact ih hrest (by omega)

theorem firstLine_of_split (hearlier : StartsLine earlier) (later : List Char) :
    FirstLine (lead ++ later) (lineAt (earlier ++ lead ++ later) (earlier.count '\n')) := by
  rw [List.append_assoc, lineAt_append hearlier]
  exact firstLine_lineAt_zero (lead ++ later)

end Split

end ProbeLowering.Text
