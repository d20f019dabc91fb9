/-!
# Blank characters and trimming

Every reader of the library trims the pieces it cuts: paths, literals, conditions and the halves
of a `for` attribute. They share one notion of blank character, the white space of Unicode
together with the four information separators U+001C to U+001F.

* `trim_of_forall`: a text of blanks trims to nothing;
* `trim_cons_of_not_space`: trimming keeps a first character that is no blank.
-/

namespace Stencil.Text

/-- A blank: a control that moves the cursor, an information separator, or a Unicode space. -/
def isSpace (c : Char) : Bool :=
  let n := c.toNat
  (9 ≤ n && n ≤ 13) || (28 ≤ n && n ≤ 32) || n == 0x85 || n == 0xA0 || n == 0x1680 ||
    (0x2000 ≤ n && n ≤ 0x200A) || n == 0x2028 || n == 0x2029 || n == 0x202F || n == 0x205F ||
    n == 0x3000

/-- The text without its leading blanks. -/
def trimStart (s : List Char) : List Char :=
  s.dropWhile isSpace

/-- The text without its trailing blanks. -/
def trimEnd : List Char → List Char
  | [] => []
  | c :: s =>
    match trimEnd s with
    | [] => if isSpace c then [] else [c]
    | d :: t => c :: d :: t

/-- The text without the blanks at its two ends. -/
def trim (s : List Char) : List Char :=
  trimEnd (trimStart s)

/-- Whether a text holds nothing but blanks. -/
def isBlank (s : List Char) : Bool :=
  s.all isSpace

theorem trimStart_of_forall {s : List Char} (h : isBlank s = true) : trimStart s = [] := by
  induction s with
  | nil => rfl
  | cons c s ih =>
    simp only [isBlank, List.all_cons, Bool.and_eq_true] at h
    simp only [trimStart, List.dropWhile_cons, h.1, if_true]
    exact ih h.2

theorem trim_of_forall {s : List Char} (h : isBlank s = true) : trim s = [] := by
  simp [trim, trimStart_of_forall h, trimEnd]

theorem trimEnd_cons_of_not_space {c : Char} (s : List Char) (h : isSpace c = false) :
    trimEnd (c :: s) = c :: trimEnd s := by
  simp only [trimEnd]
  split <;> simp_all

theorem trim_cons_of_not_space {c : Char} (s : List Char) (h : isSpace c = false) :
    trim (c :: s) = c :: trimEnd s := by
  rw [trim, trimStart, List.dropWhile_cons, h]
  exact trimEnd_cons_of_not_space s h

end Stencil.Text
