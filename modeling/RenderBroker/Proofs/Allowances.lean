import Mathlib.Data.List.Basic
import Mathlib.Data.List.TakeWhile
import RenderBroker.Render.Loopback

namespace RenderBroker

namespace Text

variable {s : List Char} {sep c : Char}

theorem trimStart_cons_of_blank (blank : isBlank c = true) (s : List Char) :
    trimStart (c :: s) = trimStart s :=
  List.dropWhile_cons_of_pos blank

theorem trimStart_cons_of_black (black : isBlank c = false) (s : List Char) :
    trimStart (c :: s) = c :: s :=
  List.dropWhile_cons_of_neg (by simp [black])

theorem trimEnd_cons (c : Char) (s : List Char) :
    trimEnd (c :: s) = if trimEnd s = [] ∧ isBlank c = true then [] else c :: trimEnd s := by
  rw [trimEnd, trimEnd, trimStart, trimStart, List.reverse_cons, List.dropWhile_append]
  cases rest : s.reverse.dropWhile isBlank with
  | nil => cases blank : isBlank c <;> simp [blank]
  | cons d t => simp

theorem trimStart_trimEnd (s : List Char) : trimStart (trimEnd s) = trim s := by
  induction s with
  | nil => rfl
  | cons c s ih =>
    rw [trim, trimEnd_cons]
    cases blank : isBlank c with
    | true =>
      rw [trimStart_cons_of_blank blank, ← trim, ← ih]
      split
      next gone => rw [gone.1]
      next => exact trimStart_cons_of_blank blank _
    | false =>
      rw [if_neg (by simp), trimStart_cons_of_black blank, trimStart_cons_of_black blank,
        trimEnd_cons, if_neg (by simp [blank])]

theorem exists_cut_eq_cons (sep : Char) (s : List Char) : ∃ part parts, cut sep s = part :: parts :=
  List.exists_cons_of_ne_nil (cut_ne_nil sep s)

theorem cut_cons_of_ne {part : List Char} {parts : List (List Char)} (other : c ≠ sep)
    (rest : cut sep s = part :: parts) : cut sep (c :: s) = (c :: part) :: parts := by
  rw [cut, if_neg other, rest]

theorem map_trimStart_cut (black : isBlank sep = false) (s : List Char) :
    (cut sep (trimStart s)).map trimStart = (cut sep s).map trimStart := by
  induction s with
  | nil => rfl
  | cons c s ih =>
    cases blank : isBlank c with
    | false => rw [trimStart_cons_of_black blank]
    | true =>
      have other : c ≠ sep := by
        rintro rfl
        simp [black] at blank
      obtain ⟨part, parts, rest⟩ := exists_cut_eq_cons sep s
      rw [trimStart_cons_of_blank blank, ih, cut_cons_of_ne other rest, rest, List.map_cons,
        List.map_cons, trimStart_cons_of_blank blank]

theorem map_trimEnd_cut (black : isBlank sep = false) (s : List Char) :
    (cut sep (trimEnd s)).map trimEnd = (cut sep s).map trimEnd := by
  induction s with
  | nil => rfl
  | cons c s ih =>
    obtain ⟨part, parts, rest⟩ := exists_cut_eq_cons sep s
    rw [trimEnd_cons]
    split
    next gone =>
      -- all that is left is blank, so it is the only part of the rest
      have other : c ≠ sep := by
        rintro rfl
        simp [black] at gone
      rw [gone.1, rest] at ih
      obtain ⟨last, none⟩ := List.cons.inj ih
      rw [cut_cons_of_ne other rest, List.map_cons, ← none, trimEnd_cons, ← last,
        if_pos ⟨rfl, gone.2⟩]
      rfl
    next =>
      by_cases here : c = sep
      · rw [cut, if_pos here, cut, if_pos here, List.map_cons, ih, List.map_cons]
      · obtain ⟨part', parts', rest'⟩ := exists_cut_eq_cons sep (trimEnd s)
        rw [rest, rest'] at ih
        obtain ⟨first, more⟩ := List.cons.inj ih
        rw [cut_cons_of_ne here rest, cut_cons_of_ne here rest', List.map_cons, List.map_cons,
          trimEnd_cons, first, ← trimEnd_cons, more]

theorem map_trim_cut (black : isBlank sep = false) (s : List Char) :
    (cut sep (trim s)).map trim = (cut sep s).map trim := by
  have start_end : trim = trimStart ∘ trimEnd := funext fun s => (trimStart_trimEnd s).symm
  have end_start : trim = trimEnd ∘ trimStart := rfl
  calc (cut sep (trim s)).map trim
      = ((cut sep (trimEnd (trimStart s))).map trimEnd).map trimStart := by
        rw [List.map_map, ← start_end, trim]
    _ = ((cut sep (trimStart s)).map trimStart).map trimEnd := by
        rw [map_trimEnd_cut black, List.map_map, ← start_end, List.map_map, ← end_start]
    _ = (cut sep s).map trim := by
        rw [map_trimStart_cut black, List.map_map, ← end_start]

theorem trim_of_blank (blank : ∀ c ∈ s, isBlank c = true) : trim s = [] := by
  have start : trimStart s = [] := List.dropWhile_eq_nil_iff.mpr blank
  rw [trim, start]
  rfl

theorem mem_trim_of_black (member : c ∈ s) (black : isBlank c = false) : c ∈ trim s := by
  have kept {s : List Char} (member : c ∈ s) : c ∈ trimStart s := by
    rw [← List.takeWhile_append_dropWhile (p := isBlank) (l := s), List.mem_append] at member
    rcases member with front | back
    · have blank := List.mem_takeWhile_imp front
      simp [black] at blank
    · exact back
  rw [trim, trimEnd, List.mem_reverse]
  exact kept (List.mem_reverse.mpr (kept member))

theorem mem_of_mem_cut {part : List Char} (h : part ∈ cut sep s) (member : c ∈ part) : c ∈ s := by
  induction s generalizing part with
  | nil =>
    rw [cut, List.mem_singleton] at h
    exact h ▸ member
  | cons d s ih =>
    obtain ⟨first, parts, rest⟩ := exists_cut_eq_cons sep s
    rw [cut, rest] at h
    split at h
    next =>
      rcases List.mem_cons.mp h with rfl | h
      · cases member
      · exact .tail d (ih (rest ▸ h) member)
    next =>
      rcases List.mem_cons.mp h with rfl | h
      · rcases List.mem_cons.mp member with rfl | member
        · exact .head s
        · exact .tail d (ih (rest ▸ .head parts) member)
      · exact .tail d (ih (rest ▸ .tail first h) member)

instance : Decidable (Bare s) :=
  inferInstanceAs (Decidable (_ ∧ _))

theorem Bare.append {t : List Char} (bare : Bare s) (some : s ≠ []) (bare' : Bare t)
    (some' : t ≠ []) (between : List Char) : Bare (s ++ between ++ t) := by
  constructor
  · rw [List.append_assoc, List.head?_append_of_ne_nil s some]
    exact bare.1
  · rw [List.getLast?_append_of_ne_nil _ some']
    exact bare'.2

theorem bare_join {parts : List (List Char)} (each : ∀ part ∈ parts, part ≠ [] ∧ Bare part) :
    Bare (join sep parts) := by
  induction parts with
  | nil => exact bare_of_black (by simp [join])
  | cons part parts ih =>
    obtain ⟨⟨some, bare⟩, others⟩ := List.forall_mem_cons.mp each
    cases parts with
    | nil => exact bare
    | cons next parts =>
      have rest : join sep (next :: parts) ≠ [] := by
        obtain ⟨⟨some, -⟩, -⟩ := List.forall_mem_cons.mp others
        cases parts <;> simp [join, some]
      have joined := bare.append some (ih others) rest [sep]
      rwa [List.append_assoc] at joined

end Text

namespace ExposedExtensions

variable {s : List Char} {name : String}

/-- A text names an extension that is one of its parts between bars, blanks around it left aside. -/
def Names (s : List Char) (name : String) : Prop :=
  name ≠ "" ∧ ∃ part ∈ Text.cut '|' s, Text.trim part = name.toList

def listed (s : List Char) : List String :=
  ((Text.cut '|' s).map Text.trim).filter (· ≠ []) |>.map String.ofList

theorem parse_of_unrestricted (all : Text.trim s = [] ∨ Text.trim s = ['a', 'l', 'l']) :
    parse s = .all :=
  if_pos all

theorem parse_of_restricted (some : Text.trim s ≠ []) (other : Text.trim s ≠ ['a', 'l', 'l']) :
    parse s = .only (listed s) := by
  rw [parse, if_neg (not_or.mpr ⟨some, other⟩), Text.map_trim_cut rfl, listed]

theorem mem_listed : name ∈ listed s ↔ Names s name := by
  simp only [listed, Names, List.mem_map, List.mem_filter, decide_eq_true_eq]
  constructor
  · rintro ⟨_, ⟨⟨part, member, rfl⟩, some⟩, rfl⟩
    refine ⟨?_, part, member, String.toList_ofList.symm⟩
    intro none
    exact some (String.ofList_eq_empty_iff.mp none)
  · rintro ⟨some, part, member, trimmed⟩
    refine ⟨name.toList, ⟨⟨part, member, trimmed⟩, ?_⟩, String.ofList_toList⟩
    intro none
    exact some (String.toList_eq_nil_iff.mp none)

theorem allows_of_restricted (some : Text.trim s ≠ []) (other : Text.trim s ≠ ['a', 'l', 'l']) :
    (parse s).allows name = true ↔ Names s name := by
  rw [parse_of_restricted some other, allows, List.contains_iff_mem, mem_listed]

theorem allows_parse_iff : (parse s).allows name = true ↔
    Text.trim s = [] ∨ Text.trim s = ['a', 'l', 'l'] ∨ Names s name := by
  by_cases all : Text.trim s = [] ∨ Text.trim s = ['a', 'l', 'l']
  · rw [parse_of_unrestricted all, ← or_assoc]
    exact iff_of_true rfl (.inl all)
  · obtain ⟨some, other⟩ := not_or.mp all
    rw [allows_of_restricted some other]
    simp [some, other]

theorem not_names_of_blank (blank : ∀ c ∈ s, c = '|' ∨ Text.isBlank c = true) : ¬ Names s name := by
  rintro ⟨some, part, member, trimmed⟩
  have all : ∀ c ∈ part, Text.isBlank c = true := by
    intro c inside
    rcases blank c (Text.mem_of_mem_cut member inside) with rfl | blank
    · exact absurd inside (Text.not_mem_of_mem_cut member)
    · exact blank
  rw [Text.trim_of_blank all] at trimmed
  exact some (String.toList_eq_nil_iff.mp trimmed.symm)

theorem restricted_of_bar (bar : '|' ∈ s) : Text.trim s ≠ [] ∧ Text.trim s ≠ ['a', 'l', 'l'] := by
  have kept := Text.mem_trim_of_black bar rfl
  constructor <;>
  · intro none
    rw [none] at kept
    simp at kept

theorem listed_join {names : List String} (some : names ≠ [])
    (each : ∀ n ∈ names, n ≠ "" ∧ '|' ∉ n.toList ∧ Text.Bare n.toList) :
    listed (Text.join '|' (names.map String.toList)) = names := by
  have parts : Text.cut '|' (Text.join '|' (names.map String.toList)) = names.map String.toList := by
    refine Text.cut_join (by simpa using some) ?_
    intro part mapped
    obtain ⟨n, member, rfl⟩ := List.mem_map.mp mapped
    exact (each n member).2.1
  have trimmed : (names.map String.toList).map Text.trim = names.map String.toList := by
    rw [List.map_map]
    exact List.map_congr_left fun n member => Text.trim_of_bare (each n member).2.2
  have kept : (names.map String.toList).filter (· ≠ []) = names.map String.toList := by
    refine List.filter_eq_self.mpr ?_
    intro part mapped
    obtain ⟨n, member, rfl⟩ := List.mem_map.mp mapped
    simpa using (each n member).1
  rw [listed, parts, trimmed, kept, List.map_map]
  simp

theorem parse_join {names : List String}
    (each : ∀ n ∈ names, n ≠ "" ∧ '|' ∉ n.toList ∧ Text.Bare n.toList)
    (some : Text.join '|' (names.map String.toList) ≠ [])
    (other : Text.join '|' (names.map String.toList) ≠ ['a', 'l', 'l']) :
    parse (Text.join '|' (names.map String.toList)) = .only names := by
  have bare : Text.trim (Text.join '|' (names.map String.toList)) =
      Text.join '|' (names.map String.toList) := by
    refine Text.trim_of_bare (Text.bare_join ?_)
    intro part mapped
    obtain ⟨n, member, rfl⟩ := List.mem_map.mp mapped
    exact ⟨by simpa using (each n member).1, (each n member).2.2⟩
  have names_some : names ≠ [] := by
    rintro rfl
    exact some rfl
  rw [parse_of_restricted (by rwa [bare]) (by rwa [bare]), listed_join names_some each]

end ExposedExtensions

namespace Loopback

theorem mem_exposed {o : RenderOptions} {name : String} :
    name ∈ exposed o ↔ name ∈ supported ∧ o.extensions.allows name = true :=
  List.mem_filter

theorem exposed_congr {o p : RenderOptions}
    (same : ∀ name, o.extensions.allows name = p.extensions.allows name) : exposed o = exposed p :=
  List.filter_congr fun name _ => same name

end Loopback

open ExposedExtensions (parse Names)

/-- A text allows every name if it is blank or the word `all`, and otherwise just its parts between
bars; names that are joined are read back, and a device exposes what is allowed in the order of its
table. -/
theorem allowances_exact :
    (∀ s name, (parse s).allows name = true ↔
      Text.trim s = [] ∨ Text.trim s = "all".toList ∨ Names s name) ∧
    (∀ s, (∀ c ∈ s, c = '|' ∨ Text.isBlank c = true) → Text.trim s ≠ [] →
      ∀ name, (parse s).allows name = false) ∧
    (∀ s, '|' ∈ s → ∀ name, (parse s).allows name = true ↔ Names s name) ∧
    (∀ names : List String, (∀ n ∈ names, n ≠ "" ∧ '|' ∉ n.toList ∧ Text.Bare n.toList) →
      let joined := Text.join '|' (names.map String.toList)
      joined ≠ [] → joined ≠ "all".toList → parse joined = .only names) ∧
    ∀ o : RenderOptions,
      (Loopback.exposed o).Sublist Loopback.supported ∧ (Loopback.exposed o).Nodup ∧
      (∀ name, name ∈ Loopback.exposed o ↔
        name ∈ Loopback.supported ∧ o.extensions.allows name = true) ∧
      ∀ names others : List String, (∀ n, n ∈ names ↔ n ∈ others) →
        Loopback.exposed { o with extensions := .only names } =
          Loopback.exposed { o with extensions := .only others } := by
  refine ⟨?_, ?_, ?_, ?_, ?_⟩
  · intro s name
    exact ExposedExtensions.allows_parse_iff
  · intro s blank some name
    have other : Text.trim s ≠ ['a', 'l', 'l'] := by
      intro word
      have letter : 'a' ∈ Text.trim s := by simp [word]
      rcases blank 'a' (Text.mem_of_mem_trim letter) with bar | blank
      · cases bar
      · cases blank
    rw [Bool.eq_false_iff]
    intro allowed
    exact ExposedExtensions.not_names_of_blank blank
      ((ExposedExtensions.allows_of_restricted some other).mp allowed)
  · intro s bar name
    obtain ⟨some, other⟩ := ExposedExtensions.restricted_of_bar bar
    exact ExposedExtensions.allows_of_restricted some other
  · intro names each joined some other
    exact ExposedExtensions.parse_join each some other
  · intro o
    refine ⟨List.filter_sublist, List.filter_sublist.nodup (by decide), ?_, ?_⟩
    · intro name
      exact Loopback.mem_exposed
    · intro names others same
      apply Loopback.exposed_congr
      intro name
      rw [Bool.eq_iff_iff]
      simpa [ExposedExtensions.allows] using same name

/-- Blanks around the parts, bars and blanks alone, the word `all` among other parts, and a list
that repeats a name and has another order than the table. -/
theorem allowances_exact_spaced :
    (parse "\u3000| VK_A\u00A0|\t|".toList).allows "VK_A" = true ∧
      (parse " |\u2003| ".toList).allows "" = false ∧
      (parse " all | VK_A ".toList).allows "VK_B" = false ∧
      parse "b|all|b".toList = .only ["b", "all", "b"] ∧
      Loopback.exposed { extensions := .only ["VK_KHR_maintenance1", "x", "VK_KHR_swapchain", "x"] } =
        Loopback.exposed { extensions := .only ["VK_KHR_swapchain", "x", "VK_KHR_maintenance1"] } := by
  obtain ⟨allows, blank, bar, joined, exposed⟩ := allowances_exact
  refine ⟨?_, ?_, ?_, ?_, ?_⟩
  · exact (allows _ "VK_A").mpr (.inr (.inr ⟨by decide, " VK_A\u00A0".toList, by decide, by decide⟩))
  · have marks : (" |\u2003| ".toList.all fun c => c == '|' || Text.isBlank c) = true := rfl
    exact blank _ (fun c member => by simpa using List.all_eq_true.mp marks c member) (by decide) ""
  · rw [Bool.eq_false_iff, ne_eq, bar _ (by decide)]
    rintro ⟨-, part, member, trimmed⟩
    revert part
    decide
  · have black : ∀ n ∈ ["b", "all", "b"],
        n ≠ "" ∧ '|' ∉ n.toList ∧ (n.toList.all fun c => !Text.isBlank c) = true := by decide
    refine joined ["b", "all", "b"] ?_ (by decide) (by decide)
    intro n member
    obtain ⟨some, bar, black⟩ := black n member
    exact ⟨some, bar, Text.bare_of_black (by simpa using black)⟩
  · exact (exposed {}).2.2.2 _ _ (by grind)

end RenderBroker
