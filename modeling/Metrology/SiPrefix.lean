import Metrology.Scalar

/-!
Prefixes of units, each with its short and long form and the factor it stands for, and the prefixes of the SI, which
are powers of ten.
-/

namespace Metrology

structure SiPrefix (α : Type) where
  symbol : String
  name : String
  factor : α
  aliases : List String

namespace SiPrefix

variable {α : Type}

def symbols (p : SiPrefix α) : List String :=
  p.symbol :: p.aliases

variable [Scalar α]

def tera : SiPrefix α := ⟨"T", "tera", Scalar.powerOfTen 12, []⟩
def giga : SiPrefix α := ⟨"G", "giga", Scalar.powerOfTen 9, []⟩
def mega : SiPrefix α := ⟨"M", "mega", Scalar.powerOfTen 6, []⟩
def kilo : SiPrefix α := ⟨"k", "kilo", Scalar.powerOfTen 3, []⟩
def hecto : SiPrefix α := ⟨"h", "hecto", Scalar.powerOfTen 2, []⟩
def deca : SiPrefix α := ⟨"da", "deca", Scalar.powerOfTen 1, []⟩
def deci : SiPrefix α := ⟨"d", "deci", Scalar.powerOfTen (-1), []⟩
def centi : SiPrefix α := ⟨"c", "centi", Scalar.powerOfTen (-2), []⟩
def milli : SiPrefix α := ⟨"m", "milli", Scalar.powerOfTen (-3), []⟩
-- The Greek letter, the micro sign and the letter u.
def micro : SiPrefix α := ⟨"\u03bc", "micro", Scalar.powerOfTen (-6), ["\u00b5", "u"]⟩
def nano : SiPrefix α := ⟨"n", "nano", Scalar.powerOfTen (-9), []⟩
def pico : SiPrefix α := ⟨"p", "pico", Scalar.powerOfTen (-12), []⟩

def all : List (SiPrefix α) :=
  [tera, giga, mega, kilo, hecto, deca, deci, centi, milli, micro, nano, pico]

def large : List (SiPrefix α) :=
  [tera, giga, mega, kilo]

-- The prefix with the given symbol or alias.
def find (symbol : String) : Except Error (SiPrefix α) :=
  match all.find? (·.symbols.contains symbol) with
  | some p => .ok p
  | none => .error (.unknownSiPrefix symbol)

end SiPrefix

end Metrology
