import RenderBroker.Stream.Descriptor

/-!
# The poller

The poller knows for each watched descriptor which kinds of readiness are wanted.
-/

namespace RenderBroker

structure Interest where
  read : Bool := true
  peerClosed : Bool := false
  write : Bool := false
  deriving DecidableEq, Repr

/-- The interest in a client, with or without output that waits. -/
def Interest.client (write : Bool) : Interest :=
  ⟨true, true, write⟩

structure Poller where
  watched : List (Descriptor × Interest) := []

namespace Poller

def watches (p : Poller) (d : Descriptor) : Bool :=
  p.watched.any fun w => w.1 == d

def interest? (p : Poller) (d : Descriptor) : Option Interest :=
  p.watched.lookup d

def remove (p : Poller) (d : Descriptor) : Poller :=
  ⟨p.watched.filter fun w => w.1 != d⟩

def add (p : Poller) (d : Descriptor) (i : Interest) : Poller :=
  ⟨(p.remove d).watched ++ [(d, i)]⟩

/-- Changes what is wanted of a descriptor that is watched. -/
def modify (p : Poller) (d : Descriptor) (i : Interest) : Poller :=
  ⟨p.watched.map fun w => if w.1 = d then (d, i) else w⟩

theorem interest?_cons (d e : Descriptor) (i : Interest) (ws : List (Descriptor × Interest)) :
    (Poller.mk ((d, i) :: ws)).interest? e =
      if e = d then some i else (Poller.mk ws).interest? e := by
  simp only [interest?, List.lookup_cons]
  by_cases same : e = d
  · simp [same]
  · rw [if_neg same, beq_false_of_ne same]

theorem interest?_remove (p : Poller) (d e : Descriptor) :
    (p.remove d).interest? e = if e = d then none else p.interest? e := by
  obtain ⟨ws⟩ := p
  induction ws with
  | nil => simp [remove, interest?]
  | cons w ws ih =>
    obtain ⟨f, i⟩ := w
    simp only [remove] at ih ⊢
    by_cases gone : f = d
    · rw [List.filter_cons_of_neg (by simpa using gone), ih, interest?_cons]
      split <;> simp_all
    · rw [List.filter_cons_of_pos (by simpa using gone), interest?_cons, interest?_cons, ih]
      split <;> simp_all

theorem interest?_add (p : Poller) (d e : Descriptor) (i : Interest) :
    (p.add d i).interest? e = if e = d then some i else p.interest? e := by
  have last := interest?_cons d e i []
  have before := p.interest?_remove d e
  simp only [interest?, add, List.lookup_append] at last before ⊢
  rw [last, before]
  split <;> simp

theorem interest?_modify (p : Poller) (d e : Descriptor) (i : Interest) :
    (p.modify d i).interest? e =
      if e = d then (p.interest? d).map fun _ => i else p.interest? e := by
  obtain ⟨ws⟩ := p
  induction ws with
  | nil => simp [modify, interest?]
  | cons w ws ih =>
    obtain ⟨f, j⟩ := w
    simp only [modify, List.map_cons] at ih ⊢
    split
    · rw [interest?_cons, interest?_cons, interest?_cons, ih]
      split <;> simp_all
    · rw [interest?_cons, interest?_cons, interest?_cons, ih]
      split <;> simp_all [eq_comm]

theorem watches_iff (p : Poller) (d : Descriptor) :
    p.watches d = true ↔ ∃ i, p.interest? d = some i := by
  obtain ⟨ws⟩ := p
  induction ws with
  | nil => simp [watches, interest?]
  | cons w ws ih =>
    obtain ⟨e, i⟩ := w
    rw [interest?_cons]
    by_cases same : d = e
    · simp [watches, same]
    · rw [if_neg same, ← ih]
      simp [watches, Ne.symm same]

theorem nodup_remove {p : Poller} (once : (p.watched.map Prod.fst).Nodup) (d : Descriptor) :
    ((p.remove d).watched.map Prod.fst).Nodup :=
  once.sublist (List.filter_sublist.map _)

theorem nodup_add {p : Poller} (once : (p.watched.map Prod.fst).Nodup) (d : Descriptor)
    (i : Interest) : ((p.add d i).watched.map Prod.fst).Nodup := by
  rw [add, List.map_append, List.nodup_append]
  refine ⟨nodup_remove once d, by simp, ?_⟩
  intro e he f hf
  obtain ⟨w, hw, rfl⟩ := List.mem_map.mp he
  have other : w.1 ≠ d := by simpa using (List.mem_filter.mp hw).2
  simpa [List.mem_singleton.mp hf] using other

theorem nodup_modify {p : Poller} (once : (p.watched.map Prod.fst).Nodup) (d : Descriptor)
    (i : Interest) : ((p.modify d i).watched.map Prod.fst).Nodup := by
  have same : (p.modify d i).watched.map Prod.fst = p.watched.map Prod.fst := by
    rw [modify, List.map_map]
    apply List.map_congr_left
    intro w _
    rw [Function.comp_apply]
    split
    · next here => exact here.symm
    · rfl
  rwa [same]

end Poller

end RenderBroker
