/-!
# Problems of TOML texts

Why a text is no TOML document, and the byte at which that shows.
-/

namespace ProbeLowering.Toml

inductive ProblemKind where
  | expected (what : String)
  | unexpectedEnd
  | badEscape
  | badNumber (text : String)
  | duplicateKey (name : String)
  | tooDeep
  deriving DecidableEq, Repr

structure Problem where
  kind : ProblemKind
  position : Nat
  deriving DecidableEq, Repr

def ProblemKind.message : ProblemKind → String
  | expected what => s!"expected {what}"
  | unexpectedEnd => "unexpected end of the text"
  | badEscape => "invalid escape sequence"
  | badNumber text => s!"invalid number or date: {text}"
  | duplicateKey name => s!"duplicate key \x60{name}\x60"
  | tooDeep => "nested too deeply"

end ProbeLowering.Toml
