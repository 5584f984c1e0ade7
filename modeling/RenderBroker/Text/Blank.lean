/-!
# Blank characters

The characters that separate words without being seen, as one table of code point ranges, and the
removal of blanks at both ends of a text.
-/

namespace RenderBroker.Text

/-- The ranges of code points that have the White_Space property. -/
def blankRanges : List (Nat × Nat) :=
  [(0x9, 0xD), (0x20, 0x20), (0x85, 0x85), (0xA0, 0xA0), (0x1680, 0x1680), (0x2000, 0x200A),
    (0x2028, 0x2029), (0x202F, 0x202F), (0x205F, 0x205F), (0x3000, 0x3000)]

/-- A character is blank if a range of the table holds it. -/
def isBlank (c : Char) : Bool :=
  blankRanges.any fun r => r.1 ≤ c.toNat && c.toNat ≤ r.2

def trimStart (s : List Char) : List Char :=
  s.dropWhile isBlank

def trimEnd (s : List Char) : List Char :=
  (trimStart s.reverse).reverse

def trim (s : List Char) : List Char :=
  trimEnd (trimStart s)

/-- A text is bare if it neither starts nor ends with a blank. -/
def Bare (s : List Char) : Prop :=
  (∀ c ∈ s.head?, isBlank c = false) ∧ (∀ c ∈ s.getLast?, isBlank c = false)

variable {s : List Char}

theorem trimStart_of_bare_head (bare : ∀ c ∈ s.head?, isBlank c = false) : trimStart s = s := by
  cases s with
  | nil => rfl
  | cons c s => exact List.dropWhile_cons_of_neg (by simp [bare c rfl])

theorem head?_trimStart (s : List Char) : ∀ c ∈ (trimStart s).head?, isBlank c = false := by
  intro c first
  have front := List.head?_dropWhile_not isBlank s
  rw [Option.mem_def] at first
  rw [trimStart] at first
  rwa [first] at front

theorem exists_trimEnd_append (s : List Char) : ∃ rest, trimEnd s ++ rest = s := by
  have back : (trimEnd s).reverse <:+ s.reverse := by
    rw [trimEnd, List.reverse_reverse]
    exact List.dropWhile_suffix isBlank
  exact List.reverse_suffix.mp back

theorem bare_trim (s : List Char) : Bare (trim s) := by
  constructor
  · intro c first
    obtain ⟨rest, whole⟩ := exists_trimEnd_append (trimStart s)
    apply head?_trimStart s c
    rw [← whole, List.head?_append]
    rw [trim] at first
    rw [first]
    rfl
  · intro c last
    rw [trim, trimEnd, List.getLast?_reverse] at last
    exact head?_trimStart _ c last

theorem trim_of_bare (bare : Bare s) : trim s = s := by
  rw [trim, trimStart_of_bare_head bare.1, trimEnd, trimStart_of_bare_head, List.reverse_reverse]
  rw [List.head?_reverse]
  exact bare.2

theorem bare_of_black (black : ∀ c ∈ s, isBlank c = false) : Bare s :=
  ⟨fun c first => black c (List.mem_of_head? first), fun c last => black c (List.mem_of_getLast? last)⟩

@[simp] theorem trim_trim (s : List Char) : trim (trim s) = trim s :=
  trim_of_bare (bare_trim s)

theorem mem_of_mem_trim {c : Char} (member : c ∈ trim s) : c ∈ s := by
  obtain ⟨rest, whole⟩ := exists_trimEnd_append (trimStart s)
  have front : c ∈ trimStart s := by
    rw [← whole]
    exact List.mem_append_left rest member
  exact (List.dropWhile_suffix isBlank).subset front

end RenderBroker.Text
