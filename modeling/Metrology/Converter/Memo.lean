import Metrology.BaseForm

/-!
The memory of a converter: texts with what they reduced to, the least recently used first.
-/

namespace Metrology

abbrev Memo (α : Type) := List (String × BaseForm α)

namespace Memo

variable {α : Type}

def keys (m : Memo α) : List String :=
  m.map (·.1)

def find? (m : Memo α) (text : String) : Option (BaseForm α) :=
  m.lookup text

-- Makes an entry the most recently used one.
def touch (m : Memo α) (text : String) : Memo α :=
  m.filter (·.1 ≠ text) ++ m.filter (·.1 = text)

-- Adds an entry as the most recently used one and forgets the oldest ones beyond a size.
def insert (m : Memo α) (size : Nat) (text : String) (unit : BaseForm α) : Memo α :=
  let all := m.filter (·.1 ≠ text) ++ [(text, unit)]
  all.drop (all.length - size)

theorem keys_touch (m : Memo α) (text : String) :
    (m.touch text).keys = m.keys.filter (· ≠ text) ++ m.keys.filter (· = text) := by
  simp [touch, keys, List.filter_map, Function.comp_def]

theorem keys_insert (m : Memo α) (size : Nat) (text : String) (unit : BaseForm α) :
    (m.insert size text unit).keys =
      (m.keys.filter (· ≠ text) ++ [text]).drop ((m.keys.filter (· ≠ text)).length + 1 - size) := by
  simp [insert, keys, List.filter_map, Function.comp_def, List.map_drop]

end Memo

end Metrology
