import Mathlib.Data.List.Basic
import RenderBroker.Files.Tree

namespace RenderBroker

/-- Nothing lies below such a node, and it leads nowhere else. -/
def FileNode.IsLeaf : FileNode → Prop
  | .file _ | .socket _ _ => True
  | .directory | .link _ => False

namespace FileTree

variable {t u : FileTree} {follow : Bool} {links : Nat} {here l : Location} {names : List FileName}
  {r : Target} {p : Path}

def Target.EndsAt (l : Location) : Target → Prop
  | .vacant m => m = l
  | .found m n => m = l ∧ n.IsLeaf

def reached? : Except Fault Target → Option (Location × FileNode)
  | .ok (.found l n) => some (l, n)
  | _ => none

def atEnd (t : FileTree) (l : Location) : Except Fault Target :=
  match t.node? l with
  | some n => .ok (.found l n)
  | none =>
    if maxName < (l.getLast?.getD []).length then .error .nameTooLong else .ok (.vacant l)

theorem reached?_atEnd (t : FileTree) (l : Location) :
    reached? (t.atEnd l) = (t.node? l).map (l, ·) := by
  rw [atEnd]
  cases t.node? l with
  | some n => rfl
  | none =>
    dsimp only
    split <;> rfl

/-- A path without open end: an empty name stands last only if no name is there at all. -/
def Closed (names : List FileName) : Prop :=
  names.getLast? = some [] → ∀ s ∈ names, s = []

theorem Closed.tail {name : FileName} (closed : Closed (name :: names)) : Closed names := by
  intro last s hs
  refine closed ?_ s (List.mem_cons_of_mem name hs)
  rw [List.getLast?_cons, last]
  rfl

theorem Closed.last {name : FileName} (closed : Closed (name :: names)) (busy : ¬Path.isIdle name) :
    names.getLast? ≠ some [] := by
  intro last
  have empty := closed (by rw [List.getLast?_cons, last]; rfl) name List.mem_cons_self
  simp [Path.isIdle, empty] at busy

theorem Closed.eq_nil {name : FileName} (closed : Closed (name :: names)) (busy : ¬Path.isIdle name)
    (empty : names.all (· == []) = true) : names = [] := by
  cases last : names.getLast? with
  | none => exact List.getLast?_eq_none_iff.mp last
  | some s =>
    have blank : s = [] := by
      simpa using List.all_eq_true.mp empty s (List.mem_of_getLast? last)
    exact absurd (blank ▸ last) (closed.last busy)

theorem Closed.append {name : FileName} (closed : Closed (name :: names))
    (busy : ¬Path.isIdle name) (more : names ≠ []) (before : List FileName) :
    Closed (before ++ names) := by
  intro last
  rw [List.getLast?_append_of_ne_nil _ more] at last
  exact absurd last (closed.last busy)

/-- What is known of the end of a look-up: nothing lies there, or what it found. -/
def Sound (t : FileTree) (l : Location) (e : Except Fault Target) : Prop :=
  ∀ r, e = .ok r → r.EndsAt l →
    l ≠ [] ∧ (∀ n, t.node? l = some n → n.IsLeaf) ∧ reached? (.ok r) = (t.node? l).map (l, ·)

section Jumps

variable {jump : Path → Location → List FileName → Except Fault Target}

theorem sound_walkWith (jumps : ∀ target here names, t.Sound l (jump target here names))
    (here : Location) (names : List FileName) : t.Sound l (t.walkWith follow jump here names) := by
  intro r h ends
  fun_induction walkWith t follow jump here names with
  | case1 =>
    cases h
    exact ends.2.elim
  | case2 _ _ _ _ ih => exact ih h
  | case3 _ _ _ ih => exact ih h
  | case4 => cases h
  | case5 here name names idle up vacant =>
    cases h
    obtain rfl : here ++ [name] = l := ends
    exact ⟨by simp, by simp [vacant], by rw [vacant]; rfl⟩
  | case6 => cases h
  | case7 _ _ _ _ _ _ ih => exact ih h
  | case8 =>
    cases h
    exact ends.2.elim
  | case9 => exact jumps _ _ _ r h ends
  | case10 here name idle up n dir link found =>
    cases h
    obtain ⟨rfl, leaf⟩ := ends
    refine ⟨by simp, ?_, by rw [found]; rfl⟩
    intro m hm
    obtain rfl := Option.some.inj (found.symm.trans hm)
    exact leaf
  | case11 => cases h

theorem sound_walk (t : FileTree) (follow : Bool) (links : Nat) (here : Location)
    (names : List FileName) : t.Sound l (t.walk follow links here names) := by
  induction links generalizing here names with
  | zero =>
    refine sound_walkWith ?_ here names
    rintro _ _ _ _ ⟨⟩
  | succ links ih =>
    refine sound_walkWith ?_ here names
    intro target here names
    split
    · rintro _ ⟨⟩
    · exact ih _ _

theorem node?_of_walk (h : t.walk follow links here names = .ok r) (ends : r.EndsAt l) :
    l ≠ [] ∧ (∀ n, t.node? l = some n → n.IsLeaf) ∧
      reached? (.ok r) = (t.node? l).map (l, ·) :=
  t.sound_walk follow links here names r h ends

theorem walkWith_last {name : FileName} (busy : ¬Path.isIdle name) (down : name ≠ Path.dotDot)
    (leaf : ∀ n, u.node? (here ++ [name]) = some n → n.IsLeaf) :
    u.walkWith follow jump here [name] = u.atEnd (here ++ [name]) := by
  rw [walkWith, if_neg busy, if_neg down, atEnd, List.getLast?_concat, Option.getD_some]
  cases found : u.node? (here ++ [name]) with
  | none => rfl
  | some n =>
    have := leaf n found
    cases n with
    | directory | link => cases this
    | file | socket => rfl

/-- A look-up that ended at a location ends there again, with what lies there then. -/
def Again (u : FileTree) (l : Location) (before after : Except Fault Target) : Prop :=
  ∀ r, before = .ok r → r.EndsAt l → after = u.atEnd l

/-- The files have changed at most at a location, where nothing leads on before or after. -/
structure Apart (t u : FileTree) (l : Location) : Prop where
  agree : ∀ m, m ≠ l → u.node? m = t.node? m
  before : ∀ n, t.node? l = some n → n.IsLeaf
  after : ∀ n, u.node? l = some n → n.IsLeaf

theorem Apart.kept (apart : Apart t u l) {m : Location} {n : FileNode} (found : t.node? m = some n)
    (on : ¬n.IsLeaf) : u.node? m = some n := by
  rw [apart.agree m, found]
  rintro rfl
  exact on (apart.before n found)

theorem Apart.again_walkWith {jump' : Path → Location → List FileName → Except Fault Target}
    (apart : Apart t u l)
    (jumps : ∀ (target : Path) here names, Closed (target.segments ++ names) →
      u.Again l (jump target here names) (jump' target here names))
    (here : Location) (closed : Closed names) (follow : Bool) :
    u.Again l (t.walkWith false jump here names) (u.walkWith follow jump' here names) := by
  intro r h ends
  fun_induction walkWith t false jump here names with
  | case1 =>
    cases h
    exact ends.2.elim
  | case2 here name names idle ih =>
    rw [walkWith, if_pos idle]
    exact ih closed.tail h
  | case3 here names idle ih =>
    rw [walkWith, if_neg idle, if_pos rfl]
    exact ih closed.tail h
  | case4 => cases h
  | case5 here name names busy down vacant short empty =>
    cases h
    obtain rfl : here ++ [name] = l := ends
    obtain rfl : names = [] := closed.eq_nil busy empty
    exact walkWith_last busy down apart.after
  | case6 => cases h
  | case7 here name names busy down found ih =>
    rw [walkWith, if_neg busy, if_neg down, apart.kept found id]
    exact ih closed.tail h
  | case8 =>
    cases h
    exact ends.2.elim
  | case9 here name names busy down target found more =>
    have more : names ≠ [] := by simpa using more
    rw [walkWith, if_neg busy, if_neg down, apart.kept found id]
    simp only [more, false_and, if_false]
    exact jumps target here names (closed.append busy more _) r h ends
  | case10 here name busy down n dir link found =>
    cases h
    obtain ⟨rfl, -⟩ := ends
    exact walkWith_last busy down apart.after
  | case11 => cases h

theorem Apart.again_walk (apart : Apart t u l) (links : Nat) (here : Location)
    (closed : Closed names) (follow : Bool) :
    u.Again l (t.walk false links here names) (u.walk follow links here names) := by
  induction links generalizing here names with
  | zero =>
    refine apart.again_walkWith ?_ here closed follow
    rintro _ _ _ _ _ ⟨⟩
  | succ links ih =>
    refine apart.again_walkWith ?_ here closed follow
    intro target here names closed
    split
    · rintro _ ⟨⟩
    · exact ih _ closed

/-- What a look-up comes to when the files have changed at most where it ended: with nothing there
that leads on, it ends there again. -/
theorem walk_eq_atEnd (agree : ∀ m, m ≠ l → u.node? m = t.node? m)
    (leaf : ∀ n, u.node? l = some n → n.IsLeaf) (closed : Closed names)
    (h : t.walk false links here names = .ok r) (ends : r.EndsAt l) (follow : Bool) :
    u.walk follow links here names = u.atEnd l :=
  have apart : Apart t u l := ⟨agree, (node?_of_walk h ends).2.1, leaf⟩
  apart.again_walk links here closed follow r h ends

end Jumps

theorem closed_segments (shut : p.endsOpen = false) : Closed p.segments := by
  intro last s hs
  rcases Text.getLast?_of_cut last with empty | open_
  · rw [Path.segments, empty] at hs
    simpa [Text.cut] using hs
  · refine Text.eq_nil_of_mem_cut ?_ hs
    simpa [Path.endsOpen, open_] using shut

theorem named_of_shut (t : FileTree) (shut : p.endsOpen = false) : t.named p = t.find false p := by
  rw [named, find, Path.closed, if_neg (by simp [shut])]

theorem reached?_eq_some {e : Except Fault Target} {n : FileNode} :
    reached? e = some (l, n) ↔ e = .ok (.found l n) := by
  constructor
  · intro h
    unfold reached? at h
    split at h
    · cases h
      rfl
    · cases h
  · rintro rfl
    rfl

theorem look?_eq (t : FileTree) (p : Path) :
    t.look? p = (reached? (t.find false p)).map Prod.snd := by
  rw [look?]
  cases t.find false p with
  | error => rfl
  | ok r => cases r <;> rfl

theorem follow?_eq (t : FileTree) (p : Path) :
    t.follow? p = (reached? (t.find true p)).map Prod.snd := by
  rw [follow?]
  cases t.find true p with
  | error => rfl
  | ok r => cases r <;> rfl

theorem node?_of_find {n : FileNode} (found : t.find follow p = .ok (.found l n))
    (leaf : n.IsLeaf) : t.node? l = some n := by
  rw [find] at found
  split at found
  · cases found
  · have there := (node?_of_walk found ⟨rfl, leaf⟩).2.2
    obtain ⟨m, here, same⟩ := Option.map_eq_some_iff.mp there.symm
    obtain ⟨-, rfl⟩ := Prod.mk.inj same
    exact here

theorem node?_of_vacant (vacant : t.find follow p = .ok (.vacant l)) : t.node? l = none := by
  rw [find] at vacant
  split at vacant
  · cases vacant
  · have there := (node?_of_walk vacant rfl).2.2
    simpa [reached?] using there.symm

/-- A path without open end leads to a location, where nothing lies or nothing that leads on. -/
structure LeadsTo (t : FileTree) (p : Path) (l : Location) : Prop where
  shut : p.endsOpen = false
  ends : ∃ r, t.find false p = .ok r ∧ r.EndsAt l

namespace LeadsTo

variable {n : FileNode}

theorem of_found (shut : p.endsOpen = false) (found : t.find false p = .ok (.found l n))
    (leaf : n.IsLeaf) : t.LeadsTo p l :=
  ⟨shut, _, found, rfl, leaf⟩

theorem inner (leads : t.LeadsTo p l) : l ≠ [] := by
  obtain ⟨-, r, h, ends⟩ := leads
  rw [FileTree.find] at h
  split at h
  · cases h
  · exact (node?_of_walk h ends).1

theorem bytes_ne_nil (leads : t.LeadsTo p l) : p.bytes ≠ [] := by
  intro empty
  obtain ⟨-, r, h, -⟩ := leads
  simp [FileTree.find, faultOf?, Path.hasNull, empty] at h

/-- Whatever happens at its end, as long as nothing there leads on, the path leads there still. -/
theorem find_eq_atEnd (leads : t.LeadsTo p l) (agree : ∀ m, m ≠ l → u.node? m = t.node? m)
    (leaf : ∀ n, u.node? l = some n → n.IsLeaf) (follow : Bool) :
    u.find follow p = u.atEnd l := by
  obtain ⟨shut, r, h, ends⟩ := leads
  rw [FileTree.find] at h ⊢
  split at h
  · cases h
  · exact walk_eq_atEnd agree leaf (closed_segments shut) h ends follow

theorem isLeaf (leads : t.LeadsTo p l) (here : t.node? l = some n) : n.IsLeaf := by
  obtain ⟨-, r, found, ends⟩ := leads
  rw [FileTree.find] at found
  split at found
  · cases found
  · exact (node?_of_walk found ends).2.1 n here

theorem find (leads : t.LeadsTo p l) (here : t.node? l = some n) {follow : Bool} :
    t.find follow p = .ok (.found l n) := by
  rw [leads.find_eq_atEnd (u := t) (fun _ _ => rfl) (fun _ => leads.isLeaf) follow, atEnd, here]

theorem put (leads : t.LeadsTo p l) (leaf : n.IsLeaf) (follow : Bool) :
    (t.put l n).find follow p = .ok (.found l n) := by
  have here := t.node?_put_same leads.inner n
  rw [leads.find_eq_atEnd (u := t.put l n) (fun m => t.node?_put_other n)
    (fun k hk => Option.some.inj (here.symm.trans hk) ▸ leaf) follow, atEnd, here]

theorem reached?_find (leads : t.LeadsTo p l) (follow : Bool) :
    FileTree.reached? (t.find follow p) = (t.node? l).map (l, ·) := by
  rw [leads.find_eq_atEnd (u := t) (fun _ _ => rfl) (fun _ => leads.isLeaf) follow, reached?_atEnd]

theorem find_take (leads : t.LeadsTo p l) (follow : Bool) :
    (t.take l).find follow p =
      if maxName < (l.getLast?.getD []).length then .error .nameTooLong else .ok (.vacant l) := by
  have gone := t.node?_take_same leads.inner
  rw [leads.find_eq_atEnd (u := t.take l) (fun m => t.node?_take_other)
    (fun k hk => by cases gone.symm.trans hk) follow, atEnd, gone]

theorem look?_eq_node? (leads : t.LeadsTo p l) : t.look? p = t.node? l := by
  rw [FileTree.look?_eq, leads.reached?_find]
  cases t.node? l <;> rfl

theorem follow?_eq_node? (leads : t.LeadsTo p l) : t.follow? p = t.node? l := by
  rw [FileTree.follow?_eq, leads.reached?_find]
  cases t.node? l <;> rfl

theorem look?_take (leads : t.LeadsTo p l) : (t.take l).look? p = none := by
  rw [FileTree.look?_eq, leads.find_take]
  split <;> rfl

theorem holds_take (leads : t.LeadsTo p l) : (t.take l).holds p = false := by
  rw [holds, FileTree.follow?_eq, leads.find_take]
  split <;> rfl

theorem after_take (leads : t.LeadsTo p l) (short : (l.getLast?.getD []).length ≤ maxName) :
    (t.take l).LeadsTo p l :=
  ⟨leads.shut, _, (leads.find_take false).trans (if_neg (Nat.not_lt.mpr short)), rfl⟩

end LeadsTo

theorem leadsTo_of_look? {n : FileNode} (shut : p.endsOpen = false) (named : t.look? p = some n)
    (leaf : n.IsLeaf) : ∃ l, t.LeadsTo p l ∧ t.node? l = some n := by
  rw [look?_eq] at named
  obtain ⟨⟨l, k⟩, found, rfl⟩ := Option.map_eq_some_iff.mp named
  have found := reached?_eq_some.mp found
  exact ⟨l, .of_found shut found leaf, node?_of_find found leaf⟩

section Changes

variable {n : FileNode} {fault : Fault} {owner mode : Nat}

theorem create_eq_ok (made : t.create p n fault = .ok u) :
    ∃ l, t.LeadsTo p l ∧ t.node? l = none ∧ u = t.put l n := by
  rw [create] at made
  split at made
  · cases made
  · next l named =>
    split at made
    · cases made
    · next shut =>
      have shut : p.endsOpen = false := by simpa using shut
      rw [t.named_of_shut shut] at named
      have leads : t.LeadsTo p l := ⟨shut, _, named, rfl⟩
      cases made
      exact ⟨l, leads, node?_of_vacant named, rfl⟩
  · cases made

theorem LeadsTo.create (leads : t.LeadsTo p l) (vacant : t.node? l = none) (n : FileNode)
    (fault : Fault) : t.create p n fault = .ok (t.put l n) := by
  obtain ⟨shut, r, found, ends⟩ := leads
  rw [FileTree.create, t.named_of_shut shut, found]
  cases r with
  | vacant m =>
    obtain rfl : m = l := ends
    exact if_neg (by simp [shut])
  | found m k =>
    obtain ⟨rfl, leaf⟩ := ends
    rw [node?_of_find found leaf] at vacant
    cases vacant

theorem LeadsTo.setMode (leads : t.LeadsTo p l) (here : t.node? l = some (.socket owner mode))
    (wanted : Nat) : t.setMode p wanted = .ok (t.put l (.socket owner wanted)) := by
  rw [FileTree.setMode, leads.find here]

theorem LeadsTo.remove (leads : t.LeadsTo p l) (here : t.node? l = some n) :
    t.remove p = .ok (t.take l) := by
  have leaf := leads.isLeaf here
  rw [FileTree.remove, t.named_of_shut leads.shut, leads.find here]
  cases n with
  | directory | link => cases leaf
  | file | socket => exact if_neg (by simp [leads.shut])

end Changes

end FileTree
end RenderBroker
