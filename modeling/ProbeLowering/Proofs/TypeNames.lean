import ProbeLowering.Proofs.TypeChains

/-!
# Names of described types

A reference to a type goes through typedefs and qualifiers (`LeadsTo`) and through
pointers.  The description of a type that comes to a record this way, over one pointer at
most, has the name of the record (`typeName_of_reaches`).
-/

namespace ProbeLowering.Dwarf

open TypeDescription (Describes)

variable {unit : CompilationUnit} {die record : Die} {reference : AttrValue} {link : TypeLink}
  {name : String} {sizes : List Nat} {terminal : TypeDescription}

theorem Says.of_isPointer {target : Option AttrValue} (htag : die.tag.isPointer = true)
    (htarget : die.attr? AttrName.type = .ok target) (h : Says unit die link) :
    ∃ size, link = .pointer size target := by
  have hother := Tag.of_isPointer htag
  cases h with
  | pointer _ _ type =>
      cases htarget.symm.trans type
      exact ⟨_, rfl⟩
  | wrapper tag | base tag | underlying tag | enumeration tag | aggregate tag
  | unspecified tag => simp [tag] at hother

theorem Says.of_isRecord (htag : die.tag.isRecord = true)
    (hname : ownText? unit die AttrName.name = .ok (some name)) (h : Says unit die link) :
    ∃ size, link = .described ⟨.struct, name, size⟩ := by
  have haggregate : die.tag.isAggregate = true := by simp [Tag.isAggregate, htag]
  have hother := Tag.of_isAggregate haggregate
  cases h with
  | aggregate _ named _ =>
      cases hname.symm.trans named
      exact ⟨_, rfl⟩
  | wrapper tag | base tag | underlying tag | enumeration tag | pointer tag
  | unspecified tag => simp [tag] at hother

inductive LeadsTo (unit : CompilationUnit) (die : Die) : AttrValue → Prop where
  | here {reference : AttrValue} {offset : Nat} (href : reference.unitRef? = some offset)
      (hentry : unit.entryAt offset = .ok die) : LeadsTo unit die reference
  | through {reference target : AttrValue} {offset : Nat} {link : Die}
      (href : reference.unitRef? = some offset) (hentry : unit.entryAt offset = .ok link)
      (htag : link.tag.isAlias = true) (htarget : link.attr? AttrName.type = .ok (some target))
      (hnext : LeadsTo unit die target) : LeadsTo unit die reference

/-- The reference leads to the entry, over one pointer at most. -/
def Reaches (unit : CompilationUnit) (reference : AttrValue) (die : Die) : Prop :=
  LeadsTo unit die reference ∨ ∃ pointer target, LeadsTo unit pointer reference ∧
    pointer.tag.isPointer = true ∧ pointer.attr? AttrName.type = .ok (some target) ∧
    LeadsTo unit die target

theorem describes_of_leadsTo (hleads : LeadsTo unit die reference)
    (h : Describes unit (some reference) sizes terminal) :
    ∃ last, Describes unit (some last) sizes terminal ∧
      ∀ link, LinkAt unit last link → Says unit die link := by
  induction hleads with
  | @here last offset href hentry =>
      refine ⟨last, h, ?_⟩
      rintro link ⟨offset', die', href', hentry', hsaid⟩
      cases href.symm.trans href'
      cases hentry.symm.trans hentry'
      exact hsaid
  | @through reference target offset die' href hentry htag htarget _ ih =>
      have hlink : LinkAt unit reference (.alias (some target)) :=
        ⟨offset, die', href, hentry, .wrapper htag htarget⟩
      cases h with
      | ends hlink' | cross hlink' => cases hlink.unique hlink'
      | through hlink' hnext =>
          cases hlink.unique hlink'
          exact ih hnext

theorem describes_pointer {target : Option AttrValue} (htag : die.tag.isPointer = true)
    (htarget : die.attr? AttrName.type = .ok target) (hleads : LeadsTo unit die reference)
    (h : Describes unit (some reference) sizes terminal) :
    ∃ size inner, sizes = size :: inner ∧ Describes unit target inner terminal := by
  obtain ⟨last, hlast, hsaid⟩ := describes_of_leadsTo hleads h
  cases hlast with
  | ends hlink | through hlink =>
      obtain ⟨size, hpointer⟩ := (hsaid _ hlink).of_isPointer htag htarget
      cases hpointer
  | cross hlink hnext =>
      obtain ⟨size, hpointer⟩ := (hsaid _ hlink).of_isPointer htag htarget
      cases hpointer
      exact ⟨_, _, rfl, hnext⟩

theorem describes_record (htag : record.tag.isRecord = true)
    (hname : ownText? unit record AttrName.name = .ok (some name))
    (hleads : LeadsTo unit record reference)
    (h : Describes unit (some reference) sizes terminal) :
    sizes = [] ∧ terminal.typeName = name := by
  obtain ⟨last, hlast, hsaid⟩ := describes_of_leadsTo hleads h
  cases hlast with
  | ends hlink =>
      obtain ⟨size, hrecord⟩ := (hsaid _ hlink).of_isRecord htag hname
      cases hrecord
      exact ⟨rfl, rfl⟩
  | through hlink | cross hlink =>
      obtain ⟨size, hrecord⟩ := (hsaid _ hlink).of_isRecord htag hname
      cases hrecord

namespace TypeDescription

theorem typeName_of_reaches {description : TypeDescription} (htag : record.tag.isRecord = true)
    (hname : ownText? unit record AttrName.name = .ok (some name))
    (hreaches : Reaches unit reference record)
    (h : ofReference unit (some reference) = .ok description) : description.typeName = name := by
  obtain ⟨sizes, terminal, hdescribes, rfl⟩ := exists_describes_of_ofReference h
  rcases hreaches with hleads | ⟨pointer, target, hleads, hpointer, htarget, hpointee⟩
  · obtain ⟨rfl, hterminal⟩ := describes_record htag hname hleads hdescribes
    exact hterminal
  · obtain ⟨size, inner, rfl, hinner⟩ := describes_pointer hpointer htarget hleads hdescribes
    obtain ⟨rfl, hterminal⟩ := describes_record htag hname hpointee hinner
    simp [spelled, stars, hterminal]

end TypeDescription

end ProbeLowering.Dwarf
