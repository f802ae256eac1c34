import ProbeLowering.Dwarf.Abbreviation

/-!
# Entries

A `Die` is an entry of a unit with the attributes that could be decoded.  When
an attribute cannot be decoded, those before it can still be used; asking for
one that is not among them is then a fault.  A `Listing` treats a sequence of
entries in the same way.
-/

namespace ProbeLowering.Dwarf

/-- What could be read in order, and the fault that ended it, if one did. -/
structure Listing (α : Type) where
  items : List α
  fault : Option Fault := none

namespace Listing

variable {α β : Type}

def empty : Listing α := ⟨[], none⟩

def failed (e : Fault) : Listing α := ⟨[], some e⟩

def cons (x : α) (l : Listing α) : Listing α := ⟨x :: l.items, l.fault⟩

/-- The first item that passes, unless a fault comes before it. -/
def findM? (p : α → Except Fault Bool) (l : Listing α) : Except Fault (Option α) := do
  match ← l.items.findM? p with
  | some x => pure (some x)
  | none =>
      match l.fault with
      | some e => throw e
      | none => pure none

def findSomeM? (f : α → Except Fault (Option β)) (l : Listing α) :
    Except Fault (Option β) := do
  match ← l.items.findSomeM? f with
  | some x => pure (some x)
  | none =>
      match l.fault with
      | some e => throw e
      | none => pure none

end Listing

structure Die where
  offset : Nat
  tag : Tag
  hasChildren : Bool
  attrs : List (AttrName × AttrValue)
  /-- Offset after the attributes, or the fault that kept them from being read. -/
  next : Except Fault Nat

namespace Die

def attr? (die : Die) (name : AttrName) : Except Fault (Option AttrValue) :=
  match die.attrs.lookup name with
  | some value => .ok (some value)
  | none =>
      match die.next with
      | .ok _ => .ok none
      | .error e => .error e

def isDeclaration (die : Die) : Except Fault Bool := do
  match ← die.attr? AttrName.declaration with
  | some (.flag value) => pure value
  | _ => pure false

def hasCode (die : Die) : Except Fault Bool := do
  if (← die.attr? AttrName.lowPc).isSome then return true
  return (← die.attr? AttrName.ranges).isSome

/-- The entry that this one instantiates, or else the one that it completes. -/
def origin? (die : Die) : Except Fault (Option Nat) := do
  match (← die.attr? AttrName.abstractOrigin).bind AttrValue.unitRef? with
  | some offset => pure (some offset)
  | none => return (← die.attr? AttrName.specification).bind AttrValue.unitRef?

end Die

/-! ## Decoding -/

def decodeAttrs (e : Encoding) : List AttrSpec → Cursor →
    List (AttrName × AttrValue) × Except Fault Nat
  | [], c => ([], .ok c.pos)
  | spec :: rest, c =>
      match spec.decode e c with
      | .error fault => ([], .error fault)
      | .ok (value, c) =>
          let (attrs, next) := decodeAttrs e rest c
          ((spec.name, value) :: attrs, next)

structure EntryPool where
  encoding : Encoding
  abbreviations : AbbreviationTable
  start : Nat
  body : Cursor

namespace EntryPool

def stop (pool : EntryPool) : Nat := pool.start + (pool.body.stop - pool.body.pos)

def offsetOf (pool : EntryPool) (pos : Nat) : Nat :=
  pool.start + (pos - pool.body.pos)

def cursorAt (pool : EntryPool) (offset : Nat) : Cursor :=
  pool.body.moveTo (pool.body.pos + (offset - pool.start))

def contains (pool : EntryPool) (offset : Nat) : Bool :=
  pool.start ≤ offset && offset < pool.stop

/-- The entry at `offset`, or the offset after a null entry. -/
def parseAt (pool : EntryPool) (offset : Nat) : Except Fault (Sum Nat Die) := do
  let (code, c) ← Decode.uleb128 (pool.cursorAt offset)
  if code = 0 then return .inl (pool.offsetOf c.pos)
  let a ← pool.abbreviations.lookup? code
  let (attrs, next) := decodeAttrs pool.encoding a.attributes c
  return .inr ⟨offset, a.tag, a.hasChildren, attrs, next.map pool.offsetOf⟩

def entryAt (pool : EntryPool) (offset : Nat) : Except Fault Die := do
  if !pool.contains offset then throw (.offsetOutOfBounds offset)
  match ← pool.parseAt offset with
  | .inr die => pure die
  | .inl _ => throw (.nullEntry offset)

/-- All entries from `offset` on; each takes a byte at least. -/
def entriesFrom (pool : EntryPool) : Nat → Nat → Listing Die
  | 0, _ => .empty
  | fuel + 1, offset =>
      if pool.stop ≤ offset then .empty
      else match pool.parseAt offset with
        | .error e => .failed e
        | .ok (.inl next) => entriesFrom pool fuel next
        | .ok (.inr die) =>
            .cons die (match die.next with
              | .error e => .failed e
              | .ok next => entriesFrom pool fuel next)

def entries (pool : EntryPool) : Listing Die :=
  pool.entriesFrom (pool.stop - pool.start + 1) pool.start

def siblingOf? (pool : EntryPool) (die : Die) : Option Nat :=
  match die.attr? AttrName.sibling with
  | .ok (some (.unitRef offset)) =>
      if die.offset < offset && pool.contains offset then some offset else none
  | _ => none

/--
Where to go on after `die`, and whether its children come next.  An entry that
says where its sibling is may be passed without reading all of it.
-/
def afterEntry (pool : EntryPool) (die : Die) : Except Fault (Bool × Nat) := do
  if !die.hasChildren then return (false, ← die.next)
  match pool.siblingOf? die with
  | some sibling => pure (false, sibling)
  | none => return (true, ← die.next)

/--
The entries at depth zero from `offset` on, up to the null entry that ends
them; `depth` is the depth of the entry at `offset`.
-/
def childrenFrom (pool : EntryPool) : Nat → Nat → Nat → Listing Die
  | 0, _, _ => .empty
  | fuel + 1, depth, offset =>
      if pool.stop ≤ offset then .empty
      else match pool.parseAt offset with
        | .error e => .failed e
        | .ok (.inl next) =>
            match depth with
            | 0 => .empty
            | depth + 1 => childrenFrom pool fuel depth next
        | .ok (.inr die) =>
            let rest := match pool.afterEntry die with
              | .error e => .failed e
              | .ok (enters, next) =>
                  childrenFrom pool fuel (if enters then depth + 1 else depth) next
            if depth = 0 then .cons die rest else rest

def childrenAt (pool : EntryPool) (offset : Nat) : Listing Die :=
  match pool.entryAt offset with
  | .error e => .failed e
  | .ok die =>
      if die.hasChildren then
        match die.next with
        | .error e => .failed e
        | .ok next => pool.childrenFrom (pool.stop - pool.start + 1) 0 next
      else .empty

end EntryPool

end ProbeLowering.Dwarf
