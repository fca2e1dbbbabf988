/-!
Parentheses in expression text: balance, the pairs that wrap a whole text, and cuts outside of all pairs.
-/

namespace Metrology.Expression

-- Whether every parenthesis has its partner, with `depth` open ones in front of the text.
def isBalanced (depth : Nat) : List Char → Bool
  | [] => depth == 0
  | '(' :: rest => isBalanced (depth + 1) rest
  | ')' :: rest => depth != 0 && isBalanced (depth - 1) rest
  | _ :: rest => isBalanced depth rest

-- Whether the outermost of `depth` open parentheses is closed by the last character and not before.
def closesAtEnd (depth : Nat) : List Char → Bool
  | [] => false
  | [c] => c == ')' && depth == 1
  | '(' :: rest => closesAtEnd (depth + 1) rest
  | ')' :: rest => depth != 1 && closesAtEnd (depth - 1) rest
  | _ :: rest => closesAtEnd depth rest

-- Removes the pairs of parentheses that wrap the whole text.
def unwrap : List Char → List Char
  | '(' :: rest => if closesAtEnd 1 rest then unwrap rest.dropLast else '(' :: rest
  | text => text
  termination_by text => text.length
  decreasing_by
    simp only [List.length_dropLast, List.length_cons]
    omega

theorem unwrap_length (text : List Char) : (unwrap text).length ≤ text.length := by
  fun_induction unwrap text with
  | case1 rest _ ih =>
    simp only [List.length_dropLast, List.length_cons] at ih ⊢
    omega
  | case2 => exact Nat.le_refl _
  | case3 => exact Nat.le_refl _

theorem unwrap_length_lt {text : List Char} (h : unwrap text ≠ text) :
    (unwrap text).length < text.length := by
  match text with
  | [] => simp [unwrap] at h
  | c :: rest =>
    by_cases hc : c = '('
    · subst hc
      rw [unwrap] at h ⊢
      split at h
      · rename_i hr
        simp only [hr, if_true]
        have := unwrap_length rest.dropLast
        simp only [List.length_dropLast, List.length_cons] at this ⊢
        omega
      · exact absurd rfl h
    · rw [unwrap] at h
      · exact absurd rfl h
      · intro _ he
        exact hc (List.cons.inj he).1

end Metrology.Expression
