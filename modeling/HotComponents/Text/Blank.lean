/-!
# Blank characters

The Unicode property `White_Space`, and cutting blanks off both ends of a text.

* `isBlank_of_isWhitespace`: every ASCII blank is blank;
* `trim_eq_nil`: a text of blanks trims to nothing.
-/

namespace HotComponents.Text

/-- Membership in the Unicode property `White_Space`. -/
def isBlank (c : Char) : Bool :=
  let n := c.toNat
  (9 ≤ n && n ≤ 13) || n == 0x20 || n == 0x85 || n == 0xA0 || n == 0x1680 ||
    (0x2000 ≤ n && n ≤ 0x200A) || n == 0x2028 || n == 0x2029 || n == 0x202F || n == 0x205F ||
    n == 0x3000

theorem isBlank_of_isWhitespace {c : Char} (h : c.isWhitespace) : isBlank c := by
  simp only [Char.isWhitespace, Bool.or_eq_true, decide_eq_true_eq] at h
  rcases h with ((rfl | rfl) | rfl) | rfl <;> decide

/-- A text without the blanks at its two ends. -/
def trim (cs : List Char) : List Char :=
  ((cs.dropWhile isBlank).reverse.dropWhile isBlank).reverse

/-- A text trims to nothing when all of it is blank. -/
theorem trim_eq_nil {cs : List Char} (h : ∀ c ∈ cs, isBlank c) : trim cs = [] := by
  have : cs.dropWhile isBlank = [] := by
    induction cs with
    | nil => rfl
    | cons c cs ih =>
      rw [List.dropWhile_cons_of_pos (h c List.mem_cons_self)]
      exact ih fun d hd => h d (List.mem_cons_of_mem c hd)
  simp [trim, this]

end HotComponents.Text
