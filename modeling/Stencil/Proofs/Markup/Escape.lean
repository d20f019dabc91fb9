import Stencil.Markup.Node.Write
import Stencil.Markup.Reference.Expand
import Stencil.Proofs.Text.Search

/-!
# Escaped texts are read as they were

Text between tags and text in attributes are escaped differently, but in both every character stands
either for itself or is written as a reference, and no ampersand is left that starts no reference.
Expanding the references of such a text gives back the text it was written from
(`expandReferences_flatMap`), whatever characters it holds.

* `expandReferences_escape`: a text between tags is read as it was;
* `expandReferences_escapeAttr`: the value of an attribute is read as it was.
-/

namespace Stencil.Markup

/-- How a character may be written: as itself, or as a reference that is read as the character
    whatever stands after it. -/
inductive Writes (c : Char) : List Char → Prop
  | plain : c ≠ '&' → Writes c [c]
  | reference {name : List Char} : '&' ∉ name →
      (∀ rest, expandReference (name ++ rest) = .ok (c :: rest)) → Writes c ('&' :: name)

theorem writes_amp : Writes '&' ['&', 'a', 'm', 'p', ';'] :=
  .reference (by decide) fun _ => rfl

theorem writes_lt : Writes '<' ['&', 'l', 't', ';'] :=
  .reference (by decide) fun _ => rfl

theorem writes_gt : Writes '>' ['&', 'g', 't', ';'] :=
  .reference (by decide) fun _ => rfl

theorem writes_quot : Writes '"' ['&', 'q', 'u', 'o', 't', ';'] :=
  .reference (by decide) fun _ => rfl

theorem writes_escapeChar (c : Char) : Writes c (escapeChar c) := by
  unfold escapeChar
  split_ifs with h₁ h₂ h₃
  · exact h₁ ▸ writes_amp
  · exact h₂ ▸ writes_lt
  · exact h₃ ▸ writes_gt
  · exact .plain h₁

theorem writes_escapeAttrChar (c : Char) : Writes c (escapeAttrChar c) := by
  unfold escapeAttrChar
  split_ifs with h₁ h₂
  · exact h₁ ▸ writes_amp
  · exact h₂ ▸ writes_quot
  · exact .plain h₁

/-- The pieces between the ampersands of a text that is written character by character: expanded
    and put together they are the text. -/
theorem fields_flatMap {w : Char → List Char} (hw : ∀ c, Writes c (w c)) (s : List Char) :
    ∃ first pieces texts, Text.fields '&' (s.flatMap w) = first :: pieces ∧
      pieces.mapM expandReference = .ok texts ∧ first ++ texts.flatten = s := by
  induction s with
  | nil => exact ⟨[], [], [], rfl, rfl, rfl⟩
  | cons c s ih =>
    obtain ⟨first, pieces, texts, hf, hp, hs⟩ := ih
    rw [List.flatMap_cons]
    generalize hwc : w c = t
    obtain hc | ⟨ha, hr⟩ := hwc ▸ hw c
    · refine ⟨c :: first, pieces, texts, ?_, hp, by rw [List.cons_append, hs]⟩
      rw [List.singleton_append, Text.fields, if_neg hc, hf]
    · -- the name of the reference starts the piece that the next character goes on
      rename_i name
      refine ⟨[], (name ++ first) :: pieces, (c :: first) :: texts, ?_, ?_, ?_⟩
      · rw [List.cons_append, Text.fields, if_pos rfl]
        clear hwc hr
        induction name with
        | nil => rw [List.nil_append, hf]; rfl
        | cons d name ih =>
          rw [List.mem_cons, not_or] at ha
          have := ih ha.2
          simp only [List.cons.injEq, true_and] at this
          rw [List.cons_append, Text.fields, if_neg fun hd => ha.1 hd.symm, this]
          rfl
      · rw [List.mapM_cons, hr, hp]
        rfl
      · rw [List.nil_append, List.flatten_cons, List.cons_append, hs]

/-- A text whose characters are written as themselves or as references is read as it was. -/
theorem expandReferences_flatMap {w : Char → List Char} (hw : ∀ c, Writes c (w c))
    (s : List Char) : expandReferences (s.flatMap w) = .ok s := by
  obtain ⟨first, pieces, texts, hf, hp, hs⟩ := fields_flatMap hw s
  rw [expandReferences, hf]
  simp only [hp]
  exact congrArg Except.ok hs

theorem expandReferences_escape (s : List Char) : expandReferences (escape s) = .ok s :=
  expandReferences_flatMap writes_escapeChar s

theorem expandReferences_escapeAttr (s : List Char) : expandReferences (escapeAttr s) = .ok s :=
  expandReferences_flatMap writes_escapeAttrChar s

/-! ### What is not escaped -/

theorem flatMap_eq_self {w : Char → List Char} {s : List Char} (h : ∀ c ∈ s, w c = [c]) :
    s.flatMap w = s := by
  induction s with
  | nil => rfl
  | cons c s ih =>
    rw [List.flatMap_cons, h c List.mem_cons_self, ih fun d hd => h d (List.mem_cons_of_mem c hd)]
    rfl

theorem escape_eq_self {s : List Char} (h : ∀ c ∈ ['&', '<', '>'], c ∉ s) : escape s = s := by
  simp only [List.forall_mem_cons, List.not_mem_nil, false_implies, implies_true, and_true] at h
  refine flatMap_eq_self fun c hc => ?_
  have hne : ∀ {d : Char}, d ∉ s → c ≠ d := fun hd he => hd (he ▸ hc)
  rw [escapeChar, if_neg (hne h.1), if_neg (hne h.2.1), if_neg (hne h.2.2)]

theorem escapeAttr_eq_self {s : List Char} (h : ∀ c ∈ ['&', '"'], c ∉ s) : escapeAttr s = s := by
  simp only [List.forall_mem_cons, List.not_mem_nil, false_implies, implies_true, and_true] at h
  refine flatMap_eq_self fun c hc => ?_
  have hne : ∀ {d : Char}, d ∉ s → c ≠ d := fun hd he => hd (he ▸ hc)
  rw [escapeAttrChar, if_neg (hne h.1), if_neg (hne h.2)]

/-! ### What an escaped text does not hold -/

/-- The characters of the references in an escaped text. -/
def referenceChars : List Char := ['&', 'a', 'm', 'p', ';', 'l', 't', 'g', 'q', 'u', 'o']

theorem mem_escape {d : Char} {s : List Char} (h : d ∈ escape s) :
    (d ∈ s ∧ d ≠ '&' ∧ d ≠ '<' ∧ d ≠ '>') ∨ d ∈ referenceChars := by
  rw [escape, List.mem_flatMap] at h
  obtain ⟨c, hc, hd⟩ := h
  unfold escapeChar at hd
  split_ifs at hd with h₁ h₂ h₃
  · exact .inr (List.mem_append_left ['l', 't', 'g', 'q', 'u', 'o'] hd)
  · simp only [List.mem_cons, List.not_mem_nil, referenceChars] at hd ⊢
    tauto
  · simp only [List.mem_cons, List.not_mem_nil, referenceChars] at hd ⊢
    tauto
  · rw [List.mem_singleton] at hd
    exact .inl ⟨hd ▸ hc, hd ▸ h₁, hd ▸ h₂, hd ▸ h₃⟩

theorem mem_escapeAttr {d : Char} {s : List Char} (h : d ∈ escapeAttr s) :
    (d ∈ s ∧ d ≠ '&' ∧ d ≠ '"') ∨ d ∈ referenceChars := by
  rw [escapeAttr, List.mem_flatMap] at h
  obtain ⟨c, hc, hd⟩ := h
  unfold escapeAttrChar at hd
  split_ifs at hd with h₁ h₂
  · exact .inr (List.mem_append_left ['l', 't', 'g', 'q', 'u', 'o'] hd)
  · simp only [List.mem_cons, List.not_mem_nil, referenceChars] at hd ⊢
    tauto
  · rw [List.mem_singleton] at hd
    exact .inl ⟨hd ▸ hc, hd ▸ h₁, hd ▸ h₂⟩

theorem lt_not_mem_escape (s : List Char) : '<' ∉ escape s := by
  intro h
  rcases mem_escape h with ⟨-, -, h, -⟩ | h
  · exact h rfl
  · exact absurd h (by decide)

theorem quote_not_mem_escapeAttr (s : List Char) : '"' ∉ escapeAttr s := by
  intro h
  rcases mem_escapeAttr h with ⟨-, -, h⟩ | h
  · exact h rfl
  · exact absurd h (by decide)

theorem escape_append (a b : List Char) : escape (a ++ b) = escape a ++ escape b :=
  List.flatMap_append

theorem escape_eq_nil {s : List Char} : escape s = [] ↔ s = [] := by
  refine ⟨fun h => ?_, fun h => by rw [h]; rfl⟩
  cases s with
  | nil => rfl
  | cons c s =>
    rw [escape, List.flatMap_cons, List.append_eq_nil_iff] at h
    have := writes_escapeChar c
    rw [h.1] at this
    cases this

end Stencil.Markup
