import ProbeLowering.Proofs.ReadPlaces
import ProbeLowering.Toml.Document

/-!
# Places in a document

The keys and items of a document know where they were written.  All these places are
boundaries between characters of its text, and so is the place of a problem
(`checked_parse`): readers note positions in the text, and building the document moves keys
and items around but makes up no place.
-/

namespace ProbeLowering.Toml

/-- The item, and all keys and items in it, are written at such places. -/
inductive Item.Placed (P : Nat → Prop) : Item → Prop
  | scalar {start : Nat} {value : Scalar} : P start → Placed P (.scalar start value)
  | array {start : Nat} {items : List Item} : P start → (∀ item ∈ items, Placed P item) →
      Placed P (.array start items)
  | inlineTable {start? : Option Nat} {entries : Entries} : (∀ n ∈ start?, P n) →
      (∀ entry ∈ entries, P entry.1.start) → (∀ entry ∈ entries, Placed P entry.2) →
      Placed P (.inlineTable start? entries)
  | table {origin : TableOrigin} {entries : Entries} : (∀ n ∈ origin.start?, P n) →
      (∀ entry ∈ entries, P entry.1.start) → (∀ entry ∈ entries, Placed P entry.2) →
      Placed P (.table origin entries)
  | tables {items : List Item} : (∀ item ∈ items, Placed P item) → Placed P (.tables items)

structure Entries.Placed (P : Nat → Prop) (entries : Entries) : Prop where
  keys : ∀ entry ∈ entries, P entry.1.start
  items : ∀ entry ∈ entries, entry.2.Placed P

structure KeyValue.Placed (P : Nat → Prop) (kv : KeyValue) : Prop where
  path : ∀ step ∈ kv.path, P step.start
  key : P kv.key.start
  item : kv.item.Placed P

def Statement.Placed (P : Nat → Prop) : Statement → Prop
  | .keyValue kv => kv.Placed P
  | .header start path key _ => P start ∧ (∀ step ∈ path, P step.start) ∧ P key.start

theorem KeyValue.Placed.start {P : Nat → Prop} {kv : KeyValue} (h : kv.Placed P) : P kv.start := by
  unfold KeyValue.start
  cases hpath : kv.path with
  | nil => exact h.key
  | cons step path => exact h.path step (hpath ▸ List.mem_cons_self)

structure Section.Placed (P : Nat → Prop) (sect : Section) : Prop where
  start : P sect.start
  path : ∀ step ∈ sect.path, P step.start
  key : P sect.key.start
  body : ∀ kv ∈ sect.body, kv.Placed P

section Trees

variable {P : Nat → Prop} {item : Item} {entries below : Entries} {key : Key} {name : String}

theorem Item.Placed.of_start? (h : item.Placed P) : ∀ n ∈ item.start?, P n := by
  cases h with
  | scalar hstart | array hstart _ =>
      rintro _ ⟨⟩
      exact hstart
  | inlineTable hstart _ _ | table hstart _ _ => exact hstart
  | tables hitems =>
      intro n hn
      unfold start? at hn
      split at hn
      any_goals contradiction
      next items origin entries rest hcons =>
        cases hcons
        cases hitems _ List.mem_cons_self with
        | table hstart _ _ => exact hstart n hn

theorem Item.Placed.of_entries? (h : item.Placed P) (hentries : item.entries? = some entries) :
    entries.Placed P := by
  cases h with
  | inlineTable _ hkeys hitems | table _ hkeys hitems =>
      cases hentries
      exact ⟨hkeys, hitems⟩
  | scalar _ | array _ _ | tables _ => cases hentries

theorem Item.Placed.of_items? {items : List Item} (h : item.Placed P)
    (hitems : item.items? = some items) : ∀ item ∈ items, item.Placed P := by
  cases h with
  | array _ hplaced | tables hplaced =>
      cases hitems
      exact hplaced
  | scalar _ | inlineTable _ _ _ | table _ _ _ => cases hitems

namespace Entries.Placed

theorem nil : Entries.Placed P [] := ⟨nofun, nofun⟩

theorem concat (h : entries.Placed P) (hkey : P key.start) (hitem : item.Placed P) :
    Entries.Placed P (entries ++ [(key, item)]) := by
  constructor
  · simpa [or_imp, forall_and, hkey] using h.keys
  · simpa [or_imp, forall_and, hitem] using h.items

theorem item? (h : entries.Placed P) (hfound : entries.item? name = some item) :
    item.Placed P := by
  obtain ⟨entry, hentry, rfl⟩ := Option.map_eq_some_iff.mp hfound
  exact h.items entry (List.mem_of_find?_eq_some hentry)

theorem without (h : entries.Placed P) : (entries.without name).Placed P :=
  ⟨fun entry hentry => h.keys entry (List.mem_of_mem_filter hentry),
    fun entry hentry => h.items entry (List.mem_of_mem_filter hentry)⟩

theorem replace (h : entries.Placed P) (hitem : item.Placed P) :
    (entries.replace name item).Placed P := by
  constructor <;> intro entry hentry <;> obtain ⟨old, hold, rfl⟩ := List.mem_map.mp hentry <;>
    split
  · exact h.keys old hold
  · exact h.keys old hold
  · exact hitem
  · exact h.items old hold

theorem inlineTable {start? : Option Nat} (h : entries.Placed P) (hstart : ∀ n ∈ start?, P n) :
    Item.Placed P (.inlineTable start? entries) :=
  .inlineTable hstart h.keys h.items

theorem table {origin : TableOrigin} (h : entries.Placed P)
    (horigin : ∀ n ∈ origin.start?, P n) : Item.Placed P (.table origin entries) :=
  .table horigin h.keys h.items

end Entries.Placed

theorem checked_duplicate {α : Type} {Q : α → Prop} {start : Nat} (h : P start) :
    Checked P Q (duplicate start key) :=
  h

theorem checked_addInline {start : Nat} (hstart : P start) (hkey : P key.start)
    (hitem : item.Placed P) {path : List Key} (hpath : ∀ step ∈ path, P step.start)
    (h : entries.Placed P) :
    Checked P (Entries.Placed P) (addInline start key item path entries) := by
  induction path generalizing entries with
  | nil =>
      unfold addInline
      split
      · exact checked_duplicate hstart
      · exact h.concat hkey hitem
  | cons step path ih =>
      obtain ⟨hstep, hpath⟩ := List.forall_mem_cons.mp hpath
      unfold addInline
      split
      · exact (ih hpath .nil).bind fun below hbelow =>
          h.concat hstep (hbelow.inlineTable nofun)
      next below hfound =>
        exact (ih hpath ((h.item? hfound).of_entries? rfl)).bind fun below hbelow =>
          h.replace (hbelow.inlineTable nofun)
      · exact checked_duplicate hstart

theorem checked_inlineEntries {start : Nat} (hstart : P start) {keyValues : List KeyValue}
    (h : ∀ kv ∈ keyValues, kv.Placed P) :
    Checked P (Entries.Placed P) (inlineEntries start keyValues) :=
  .foldlM (fun _ hentries kv hkv =>
    checked_addInline hstart (h kv hkv).key (h kv hkv).item (h kv hkv).path hentries) .nil

end Trees

/-! ## Reading -/

namespace Read

variable {text : List Char}

theorem stays_timeOfDay (date : List Char) : Stays text (timeOfDay date) := by
  have hdate : Stays text (Pure.pure date : Read (List Char)) := .pure trivial
  refine .ite ((stays_lookahead 2).seq fun marks => ?_) hdate
  split
  · exact .ite ((stays_drop 1).seq fun _ => (stays_takeWhile _).seq fun _ => .pure trivial) hdate
  · exact hdate

theorem stays_scalar : Stays text scalar := by
  refine within_position.bind fun start hstart => (stays_takeWhile _).seq fun run =>
    (stays_timeOfDay run).seq fun word => .ite ((within_expected _).seq fun _ => ?_) ?_
  all_goals
    split
    · exact .pure trivial
    · exact .throw hstart

theorem stays_bareKey : Stays text bareKey :=
  (stays_takeWhile _).seq fun _ =>
    .ite ((within_expected _).seq fun _ => .pure trivial) (.pure trivial)

theorem within_keyPart : Within text (fun key : Key => Boundary text key.start) keyPart := by
  refine stays_blanks.seq fun _ => within_position.bind fun start hstart =>
    stays_peek?.seq fun c => ?_
  have hname : ∀ name : String, Within text (fun key : Key => Boundary text key.start)
      (do
        blanks
        pure ⟨name, start⟩) :=
    fun name => stays_blanks.seq fun _ => .pure hstart
  dsimp only
  split
  · exact stays_basicString.seq hname
  · exact stays_literalString.seq hname
  · exact stays_bareKey.seq hname

def PartsPlaced (P : Nat → Prop) (parts : List Key × Key) : Prop :=
  (∀ step ∈ parts.1, P step.start) ∧ P parts.2.start

theorem within_keyParts (n : Nat) : Within text (PartsPlaced (Boundary text)) (keyParts n) := by
  induction n with
  | zero => exact within_fail _
  | succ n ih =>
      refine within_keyPart.bind fun part hpart => (stays_literal? _).seq fun _ => .ite ?_ ?_
      · exact ih.bind fun (path, key) ⟨hpath, hkey⟩ =>
          .pure ⟨List.forall_mem_cons.mpr ⟨hpart, hpath⟩, hkey⟩
      · exact .pure ⟨nofun, hpart⟩

theorem within_dottedKey : Within text (PartsPlaced (Boundary text)) dottedKey :=
  stays_bound.seq fun n => (within_keyParts n).bind fun (_, _) hparts =>
    .ite ((within_fail _).seq fun _ => .pure hparts) (.pure hparts)

section Values

variable {value : Read Item} (hvalue : Within text (Item.Placed (Boundary text)) value)
include hvalue

theorem within_keyValue : Within text (KeyValue.Placed (Boundary text)) (keyValue value) :=
  within_dottedKey.bind fun (_, _) ⟨hpath, hkey⟩ => (stays_literal _).seq fun _ =>
    stays_blanks.seq fun _ => hvalue.bind fun _ hitem => stays_blanks.seq fun _ =>
      .pure ⟨hpath, hkey, hitem⟩

theorem within_arrayItems (n : Nat) :
    Within text (fun items => ∀ item ∈ items, item.Placed (Boundary text))
      (arrayItems value n) := by
  induction n with
  | zero => exact within_fail _
  | succ n ih =>
      refine stays_gaps.seq fun _ => (stays_literal? _).seq fun _ => .ite (.pure nofun) ?_
      refine hvalue.bind fun item hitem => stays_gaps.seq fun _ => (stays_literal? _).seq fun _ =>
        .ite ?_ ?_
      · exact ih.bind fun items hitems => .pure (List.forall_mem_cons.mpr ⟨hitem, hitems⟩)
      · exact (stays_literal _).seq fun _ => .pure (List.forall_mem_singleton.mpr hitem)

theorem within_inlineKeyValues (n : Nat) :
    Within text (fun keyValues => ∀ kv ∈ keyValues, kv.Placed (Boundary text))
      (inlineKeyValues value n) := by
  induction n with
  | zero => exact within_fail _
  | succ n ih =>
      refine (within_keyValue hvalue).bind fun first hfirst => Within.get.bind fun behind hbehind =>
        (stays_literal? _).seq fun _ => ?_
      have hback : Within text (fun keyValues => ∀ kv ∈ keyValues, kv.Placed (Boundary text)) (do
          set behind
          return [first]) :=
        (Within.set hbehind).seq fun _ => .pure (List.forall_mem_singleton.mpr hfirst)
      refine .ite (stays_blanks.seq fun _ => stays_peek?.seq fun _ => .ite ?_ hback) hback
      exact ih.bind fun rest hrest => .pure (List.forall_mem_cons.mpr ⟨hfirst, hrest⟩)

theorem within_inlineTable :
    Within text (Entries.Placed (Boundary text)) (inlineTable value) := by
  refine within_position.bind fun start hstart => stays_blanks.seq fun _ =>
    (stays_literal? _).seq fun _ => .ite (.pure .nil) ?_
  refine stays_bound.seq fun n => (within_inlineKeyValues hvalue n).bind fun keyValues hplaced => ?_
  have hentries := checked_inlineEntries hstart hplaced
  cases hresult : inlineEntries start keyValues with
  | ok entries =>
      rw [hresult] at hentries
      exact (stays_literal _).seq fun _ => .pure hentries
  | error problem =>
      rw [hresult] at hentries
      exact .throw hentries

end Values

/-- By induction on the depth: what lies in a value is a value of smaller depth. -/
theorem within_valueWithin (depth : Nat) :
    Within text (Item.Placed (Boundary text)) (valueWithin depth) := by
  induction depth with
  | zero => exact within_fail _
  | succ depth ih =>
      refine within_position.bind fun start hstart => stays_peek?.seq fun c => ?_
      have harray : Within text (Item.Placed (Boundary text)) (do
          drop 1
          return .array start (← arrayItems (valueWithin depth) (← bound))) :=
        (stays_drop 1).seq fun _ => stays_bound.seq fun n =>
          (within_arrayItems ih n).bind fun _ hitems => .pure (.array hstart hitems)
      have htable : Within text (Item.Placed (Boundary text)) (do
          drop 1
          return .inlineTable (some start) (← inlineTable (valueWithin depth))) :=
        (stays_drop 1).seq fun _ => (within_inlineTable ih).bind fun _ hentries =>
          .pure (hentries.inlineTable (by rintro _ ⟨⟩; exact hstart))
      split
      · exact .ite ((within_fail _).seq fun _ => harray) harray
      · exact .ite ((within_fail _).seq fun _ => htable) htable
      · exact stays_string.seq fun _ => .pure (.scalar hstart)
      · exact stays_string.seq fun _ => .pure (.scalar hstart)
      · exact stays_scalar.seq fun _ => .pure (.scalar hstart)

theorem within_header : Within text (Statement.Placed (Boundary text)) header :=
  within_position.bind fun _ hstart => (stays_drop 1).seq fun _ => (stays_literal? _).seq fun _ =>
    within_dottedKey.bind fun (_, _) hparts => (stays_literal _).seq fun _ =>
      .pure ⟨hstart, hparts⟩

theorem within_statementFrom? (n : Nat) :
    Within text (fun found => ∀ s ∈ found, s.Placed (Boundary text)) (statementFrom? n) := by
  induction n with
  | zero => exact within_fail _
  | succ n ih =>
      refine stays_blanks.seq fun _ => stays_peek?.seq fun c => ?_
      split
      · exact .pure nofun
      · exact stays_lineEnd.seq fun _ => ih
      · exact stays_lineEnd.seq fun _ => ih
      · exact stays_lineEnd.seq fun _ => ih
      · exact within_header.bind fun _ hstatement => stays_lineEnd.seq fun _ =>
          .pure (by rintro _ ⟨⟩; exact hstatement)
      · exact (within_keyValue (within_valueWithin _)).bind fun _ hkv =>
          stays_lineEnd.seq fun _ => .pure (by rintro _ ⟨⟩; exact hkv)

theorem within_statement? :
    Within text (fun found => ∀ s ∈ found, s.Placed (Boundary text)) statement? :=
  stays_bound.seq within_statementFrom?

structure FoundPlaced (P : Nat → Prop) (found : List Statement × Option Problem) : Prop where
  statements : ∀ s ∈ found.1, s.Placed P
  problem : ∀ problem ∈ found.2, P problem.position

theorem placed_problem {problem : Problem} (h : Boundary text problem.position) :
    FoundPlaced (Boundary text) ([], some problem) :=
  ⟨nofun, by rintro _ ⟨⟩; exact h⟩

/-- By induction on the number of statements: each starts where the one before it ends. -/
theorem placed_statements (n : Nat) {source : Source} (h : source.IsIn text) :
    FoundPlaced (Boundary text) (statements n source) := by
  induction n generalizing source with
  | zero => exact placed_problem h.boundary
  | succ n ih =>
      have hread := within_statement? source h
      unfold statements
      split
      next problem hrun =>
        rw [hrun] at hread
        exact placed_problem hread
      next => exact ⟨nofun, nofun⟩
      next statement source hrun =>
        rw [hrun] at hread
        have hlater := ih hread.2
        exact ⟨List.forall_mem_cons.mpr ⟨hread.1 statement rfl, hlater.statements⟩, hlater.problem⟩

theorem placed_text {source : Source} (h : source.IsIn text) :
    FoundPlaced (Boundary text) (Read.text source) := by
  have hread := stays_literal? "\ufeff" source h
  unfold Read.text
  split
  next problem hrun =>
    rw [hrun] at hread
    exact placed_problem hread
  next source hrun =>
    rw [hrun] at hread
    exact placed_statements _ hread.2

end Read

/-! ## Building the document -/

section Building

variable {P : Nat → Prop} {entries : Entries} {origin : TableOrigin}
  {change : Bool → Entries → Except Problem Entries}

/-- The change keeps keys and items where they are, and its problems are placed as well. -/
def KeepsPlaces (P : Nat → Prop) (change : Entries → Except Problem Entries) : Prop :=
  ∀ entries : Entries, entries.Placed P → Checked P (Entries.Placed P) (change entries)

theorem checked_changeLast {change : Entries → Except Problem Entries}
    (hchange : KeepsPlaces P change) {items : List Item} (h : ∀ item ∈ items, item.Placed P) :
    Checked P (fun items => ∀ item ∈ items, item.Placed P) (changeLast change items) := by
  induction items with
  | nil => exact nofun
  | cons item rest ih =>
      obtain ⟨hitem, hrest⟩ := List.forall_mem_cons.mp h
      unfold changeLast
      split
      next heq => cases heq
      next origin entries heq =>
        cases heq
        cases hitem with
        | table horigin hkeys hitems =>
            exact (hchange entries ⟨hkeys, hitems⟩).bind fun _ hentries =>
              List.forall_mem_singleton.mpr (hentries.table horigin)
      next heq =>
        cases heq
        exact (ih hrest).bind fun _ hrest => List.forall_mem_cons.mpr ⟨hitem, hrest⟩

theorem checked_changeBelow {start : Nat} (hstart : P start) (horigin : ∀ n ∈ origin.start?, P n)
    (hchange : ∀ isDotted, KeepsPlaces P (change isDotted)) {path : List Key}
    (hpath : ∀ step ∈ path, P step.start) (isDotted : Bool) :
    KeepsPlaces P (changeBelow start origin change isDotted path) := by
  induction path generalizing isDotted with
  | nil => exact hchange isDotted
  | cons step path ih =>
      obtain ⟨hstep, hpath⟩ := List.forall_mem_cons.mp hpath
      intro entries h
      unfold changeBelow
      split
      · exact (ih hpath _ _ .nil).bind fun _ hbelow => h.concat hstep (hbelow.table horigin)
      next found below hfound =>
        have hitem := h.item? hfound
        have hbelow : Checked P (Entries.Placed P) (do
            let below ← changeBelow start origin change (found = .dotted) path below
            return entries.replace step.name (.table found below)) :=
          (ih hpath _ _ (hitem.of_entries? rfl)).bind fun _ hbelow =>
            h.replace (hbelow.table hitem.of_start?)
        dsimp only
        split
        · exact hstart
        · exact hbelow
      next items hfound =>
        exact (checked_changeLast (ih hpath false) ((h.item? hfound).of_items? rfl)).bind
          fun _ hitems => h.replace (.tables hitems)
      · exact checked_duplicate hstart

theorem checked_addKeyValue {kv : KeyValue} (hkv : kv.Placed P) :
    KeepsPlaces P (addKeyValue · kv) := by
  refine checked_changeBelow hkv.start (by exact nofun) (fun isDotted entries h => ?_)
    hkv.path false
  dsimp only
  split
  · exact hkv.start
  · split
    · exact checked_duplicate hkv.start
    · exact h.concat hkv.key hkv.item

theorem checked_claimed {start : Nat} (hstart : P start) (key : Key) (h : entries.Placed P) :
    Checked P (Entries.Placed P) (claimed start key entries) := by
  unfold claimed
  split
  · exact .nil
  next below hfound => exact (h.item? hfound).of_entries? rfl
  · exact checked_duplicate hstart

theorem checked_claimedTables {start : Nat} (hstart : P start) (key : Key)
    (h : entries.Placed P) :
    Checked P (fun items? => ∀ items ∈ items?, ∀ item ∈ items, item.Placed P)
      (claimedTables start key entries) := by
  unfold claimedTables
  split
  · exact nofun
  next items hfound =>
    rintro _ ⟨⟩
    exact (h.item? hfound).of_items? rfl
  · exact checked_duplicate hstart

theorem checked_body {body : List KeyValue} (hbody : ∀ kv ∈ body, kv.Placed P)
    (h : entries.Placed P) : Checked P (Entries.Placed P) (body.foldlM addKeyValue entries) :=
  .foldlM (fun entries hentries kv hkv => checked_addKeyValue (hbody kv hkv) entries hentries) h

section Sections

variable {sect : Section} (hsect : sect.Placed P)
include hsect

theorem Section.Placed.table (h : entries.Placed P) :
    Item.Placed P (.table (.header sect.start) entries) :=
  h.table (by rintro _ ⟨⟩; exact hsect.start)

theorem checked_addTable : KeepsPlaces P (addTable sect) := fun _ h =>
  (checked_claimed hsect.start _ h).bind fun _ hstart => (checked_body hsect.body hstart).bind
    fun _ htable => h.without.concat hsect.key (hsect.table htable)

theorem checked_addArrayTable : KeepsPlaces P (addArrayTable sect) := by
  intro entries h
  refine (checked_claimedTables hsect.start sect.key h).bind fun items? hitems =>
    (checked_body hsect.body .nil).bind fun table htable => ?_
  have hlast := List.forall_mem_singleton.mpr (hsect.table htable)
  cases items? with
  | none => exact h.concat hsect.key (.tables hlast)
  | some items =>
      exact h.replace (.tables (List.forall_mem_append.mpr ⟨hitems items rfl, hlast⟩))

theorem checked_addSection : KeepsPlaces P (addSection · sect) := by
  refine checked_changeBelow hsect.start (by exact nofun) (fun _ => ?_) hsect.path false
  split
  · exact checked_addArrayTable hsect
  · exact checked_addTable hsect

end Sections

theorem placed_sections {statements : List Statement} (h : ∀ s ∈ statements, s.Placed P) :
    (∀ kv ∈ (sections statements).1, kv.Placed P) ∧
      ∀ sect ∈ (sections statements).2, sect.Placed P := by
  induction statements with
  | nil => exact ⟨nofun, nofun⟩
  | cons s rest ih =>
      obtain ⟨hs, hrest⟩ := List.forall_mem_cons.mp h
      obtain ⟨hbody, hlater⟩ := ih hrest
      cases s with
      | keyValue kv => exact ⟨List.forall_mem_cons.mpr ⟨hs, hbody⟩, hlater⟩
      | header start path key inArray =>
          obtain ⟨hstart, hpath, hkey⟩ := hs
          exact ⟨nofun, List.forall_mem_cons.mpr ⟨⟨hstart, hpath, hkey, hbody⟩, hlater⟩⟩

theorem checked_ofStatements {statements : List Statement}
    (h : ∀ s ∈ statements, s.Placed P) :
    Checked P (Entries.Placed P) (ofStatements statements) := by
  obtain ⟨hbody, hlater⟩ := placed_sections h
  exact (checked_body hbody .nil).bind fun _ hroot => .foldlM
    (fun entries hentries sect hsect => checked_addSection (hlater sect hsect) entries hentries)
    hroot

end Building

/-- All places in a document, and that of a problem, are boundaries in its text. -/
theorem checked_parse (text : String) :
    Checked (Boundary text.toList) (Entries.Placed (Boundary text.toList)) (parse text) := by
  have hfound := Read.placed_text (isIn_ofString text)
  refine (checked_ofStatements hfound.statements).bind fun root hroot => ?_
  split
  next problem hproblem => exact hfound.problem problem hproblem
  next => exact hroot

end ProbeLowering.Toml
