/-!
# Cutting texts at a separator

`cut sep` gives the parts between separators, and `join sep` puts them together again.
-/

namespace RenderBroker.Text

variable {α : Type} [DecidableEq α]

/-- The parts between the separators; a text without a separator is its only part. -/
def cut (sep : α) : List α → List (List α)
  | [] => [[]]
  | c :: s =>
    if c = sep then [] :: cut sep s
    else
      match cut sep s with
      | [] => [[c]]
      | part :: parts => (c :: part) :: parts

/-- The text before the first separator and the text after it. -/
def cutFirst (sep : α) : List α → Option (List α × List α)
  | [] => none
  | c :: s => if c = sep then some ([], s) else (cutFirst sep s).map fun p => (c :: p.1, p.2)

/-- The parts, one after the other, with a separator between two neighbours. -/
def join (sep : α) : List (List α) → List α
  | [] => []
  | [part] => part
  | part :: next :: parts => part ++ sep :: join sep (next :: parts)

theorem cut_ne_nil (sep : α) (s : List α) : cut sep s ≠ [] := by
  cases s with
  | nil => simp [cut]
  | cons c s =>
    by_cases h : c = sep
    · simp [cut, h]
    · cases hs : cut sep s <;> simp [cut, h, hs]

theorem join_cut (sep : α) (s : List α) : join sep (cut sep s) = s := by
  induction s with
  | nil => rfl
  | cons c s ih =>
    cases hs : cut sep s with
    | nil => exact absurd hs (cut_ne_nil sep s)
    | cons part parts =>
      rw [hs] at ih
      by_cases h : c = sep
      · simp [cut, h, hs, join, ih]
      · cases parts with
        | nil => simp_all [cut, join]
        | cons next parts => simp_all [cut, join]

theorem not_mem_of_mem_cut {sep : α} {s part : List α} (h : part ∈ cut sep s) : sep ∉ part := by
  induction s generalizing part with
  | nil => simp_all [cut]
  | cons c s ih =>
    cases hs : cut sep s with
    | nil => exact absurd hs (cut_ne_nil sep s)
    | cons first parts =>
      by_cases hc : c = sep
      · simp only [cut, hc, ↓reduceIte, List.mem_cons] at h
        rcases h with rfl | h
        · simp
        · exact ih h
      · simp only [cut, hc, ↓reduceIte, hs, List.mem_cons] at h
        rcases h with rfl | h
        · have : sep ∉ first := ih (by simp [hs])
          simp [this, Ne.symm hc]
        · exact ih (by simp [hs, h])

theorem cut_of_not_mem {sep : α} {s : List α} (none : sep ∉ s) : cut sep s = [s] := by
  induction s with
  | nil => rfl
  | cons c s ih =>
    obtain ⟨here, rest⟩ := List.ne_and_not_mem_of_not_mem_cons none
    rw [cut, if_neg (Ne.symm here), ih rest]

theorem cut_append_cons {sep : α} {s : List α} (none : sep ∉ s) (t : List α) :
    cut sep (s ++ sep :: t) = s :: cut sep t := by
  induction s with
  | nil => rw [List.nil_append, cut, if_pos rfl]
  | cons c s ih =>
    obtain ⟨here, rest⟩ := List.ne_and_not_mem_of_not_mem_cons none
    rw [List.cons_append, cut, if_neg (Ne.symm here), ih rest]

theorem cut_join {sep : α} {parts : List (List α)} (some : parts ≠ [])
    (none : ∀ part ∈ parts, sep ∉ part) : cut sep (join sep parts) = parts := by
  induction parts with
  | nil => exact absurd rfl some
  | cons part parts ih =>
    obtain ⟨here, rest⟩ := List.forall_mem_cons.mp none
    cases parts with
    | nil => exact cut_of_not_mem here
    | cons next parts => rw [join, cut_append_cons here, ih (by simp) rest]

theorem getLast?_of_cut {sep : α} {s : List α}
    (last : (cut sep s).getLast? = some []) : s = [] ∨ s.getLast? = some sep := by
  induction s with
  | nil => exact .inl rfl
  | cons c s ih =>
    right
    -- the last part is one of the rest, and the same
    have rest : (cut sep s).getLast? = some [] := by
      rw [cut] at last
      cases hs : cut sep s with
      | nil => exact absurd hs (cut_ne_nil sep s)
      | cons part parts =>
        rw [hs] at last
        split at last
        · simpa [List.getLast?_cons] using last
        · cases parts with
          | nil => simp at last
          | cons next parts => simpa [List.getLast?_cons] using last
    rcases ih rest with rfl | rest
    · by_cases here : c = sep
      · rw [here]
        rfl
      · simp [cut, here] at last
    · rw [List.getLast?_cons, rest]
      rfl

theorem eq_nil_of_mem_cut {sep : α} {s part : List α}
    (all : ∀ c ∈ s, c = sep) (h : part ∈ cut sep s) : part = [] := by
  induction s with
  | nil => simpa [cut] using h
  | cons c s ih =>
    obtain ⟨here, rest⟩ := List.forall_mem_cons.mp all
    rw [cut, if_pos here] at h
    rcases List.mem_cons.mp h with rfl | h
    · rfl
    · exact ih rest h

theorem cutFirst_eq_none_iff {sep : α} {s : List α} : cutFirst sep s = none ↔ sep ∉ s := by
  induction s with
  | nil => simp [cutFirst]
  | cons c s ih => by_cases h : c = sep <;> simp_all [cutFirst, Ne.symm]

theorem cutFirst_eq_some_iff {sep : α} {s front back : List α} :
    cutFirst sep s = some (front, back) ↔ s = front ++ sep :: back ∧ sep ∉ front := by
  induction s generalizing front with
  | nil => simp [cutFirst]
  | cons c s ih =>
    by_cases here : c = sep
    · cases front <;> simp_all [cutFirst]
    · rw [cutFirst, if_neg here, Option.map_eq_some_iff]
      constructor
      · rintro ⟨⟨front, back⟩, rest, same⟩
        cases same
        obtain ⟨rfl, none⟩ := ih.mp rest
        exact ⟨rfl, by simp [none, Ne.symm here]⟩
      · rintro ⟨split, none⟩
        cases front with
        | nil => exact absurd (List.cons.inj split).1 here
        | cons b front =>
          obtain ⟨rfl, rest⟩ := List.cons.inj split
          exact ⟨(front, back), ih.mpr ⟨rest, fun there => none (.tail _ there)⟩, rfl⟩

end RenderBroker.Text
