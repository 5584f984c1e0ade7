import RenderBroker.Proofs.Lives
import RenderBroker.Server.Script

namespace RenderBroker

variable {τ ω : Type} {h : Handler τ ω}

open Occurrence

theorem Session.Path.requests {s t : Session τ ω} (path : Session.Path h s t)
    (start : s.history = []) :
    ∃ k, callbacks t.history = List.replicate k .requested := by
  refine ⟨(callbacks t.history).length, List.eq_replicate_iff.mpr ⟨rfl, ?_⟩⟩
  intro b hb
  obtain ⟨o, ho, hc⟩ := List.mem_filterMap.mp hb
  rcases Session.Path.kinds path start o (List.mem_reverse.mp ho) with
    ⟨_, _, _, rfl⟩ | ⟨_, _, _, rfl⟩ | ⟨_, _, rfl⟩
  · exact nomatch hc
  · exact (Option.some.inj hc).symm
  · exact nomatch hc

theorem Session.Path.not_declined {s t : Session τ ω} (path : Session.Path h s t)
    (start : s.history = []) (k : Nat) (d : Descriptor) : .declined k d ∉ t.history := by
  intro declined
  rcases Session.Path.kinds path start _ declined with
    ⟨_, _, _, same⟩ | ⟨_, _, _, same⟩ | ⟨_, _, same⟩ <;> cases same

/-- The callbacks of an open connection, and those of one that is not open. -/
def Course (callbacks : List Callback) : Option (Client τ) → Prop
  | some _ => ∃ k, callbacks = .opened :: List.replicate k .requested
  | none =>
    callbacks = [] ∨ ∃ k, callbacks = .opened :: (List.replicate k .requested ++ [.closed])

namespace Life

variable {inputCapacity outputCapacity n : Nat} {c : Option (Client τ)}
  {os : List (Occurrence τ ω)}

theorem course (life : Life h inputCapacity outputCapacity n c os) : Course (callbacks os) c := by
  induction life with
  | absent => exact .inl rfl
  | declined => exact .inl rfl
  | opened => exact ⟨0, rfl⟩
  | kept life served ih =>
    have path := Session.path_of_serve served (by simp)
    obtain ⟨k, hk⟩ := ih
    obtain ⟨j, hj⟩ := Session.Path.requests path rfl
    refine ⟨k + j, ?_⟩
    rw [callbacks_append, hk, hj, List.cons_append, List.replicate_append_replicate]
  | torn life served ih =>
    have path := Session.path_of_serve served (by simp)
    obtain ⟨k, hk⟩ := ih
    obtain ⟨j, hj⟩ := Session.Path.requests path rfl
    refine .inr ⟨k + j, ?_⟩
    rw [callbacks_cons, callbacks_append, hk, hj, List.cons_append,
      List.replicate_append_replicate]
    rfl
  | stopped life ih =>
    obtain ⟨k, hk⟩ := ih
    refine .inr ⟨k, ?_⟩
    rw [callbacks_cons, hk]
    rfl

theorem not_declined {c : Client τ} (life : Life h inputCapacity outputCapacity n (some c) os)
    (k : Nat) (d : Descriptor) : .declined k d ∉ os := by
  -- the client changes along a life, so the induction must not fix it
  generalize there : some c = there? at life
  induction life generalizing c with
  | absent => cases there
  | declined => cases there
  | opened => simp
  | kept life served ih =>
    have path := Session.path_of_serve served (by simp)
    intro declined
    rcases List.mem_append.mp declined with declined | declined
    · exact Session.Path.not_declined path rfl k d declined
    · exact ih rfl declined
  | torn => cases there
  | stopped => cases there

theorem callbacks_of_declined (life : Life h inputCapacity outputCapacity n c os) {k : Nat}
    {d : Descriptor} (declined : .declined k d ∈ os) : callbacks os = [] := by
  cases life with
  | absent => rfl
  | declined => rfl
  | opened => simp at declined
  | kept life served => exact absurd declined ((life.kept served).not_declined k d)
  | torn life served =>
    have path := Session.path_of_serve served (by simp)
    have before := (List.mem_cons.mp declined).resolve_left (fun same => nomatch same)
    rcases List.mem_append.mp before with before | before
    · exact absurd before (Session.Path.not_declined path rfl k d)
    · exact absurd before (life.not_declined k d)
  | stopped life =>
    have before := (List.mem_cons.mp declined).resolve_left (fun same => nomatch same)
    exact absurd before (life.not_declined k d)

end Life

theorem Client.createStreams_ok {c : Client τ} (input : c.inputCapacity ≤ maxCapacity)
    (output : c.outputCapacity ≤ maxCapacity) : ∃ b, c.createStreams = .ok b := by
  have small {n : Nat} (hn : n ≤ maxCapacity) : ¬ maxCapacity < n := Nat.not_lt.mpr hn
  have first : ∃ s, orCreate c.input c.inputCapacity InputStream.create = .ok s := by
    rw [orCreate]
    split
    · next absent =>
      refine ⟨some (.ofCapacity c.inputCapacity), ?_⟩
      rw [InputStream.create, if_neg (Nat.ne_of_gt absent.2), if_neg (small input)]
      rfl
    · exact ⟨_, rfl⟩
  have second : ∃ s, orCreate c.output c.outputCapacity OutputStream.create = .ok s := by
    rw [orCreate]
    split
    · refine ⟨some {}, ?_⟩
      rw [OutputStream.create, if_neg (small output)]
      rfl
    · exact ⟨_, rfl⟩
  obtain ⟨s, hs⟩ := first
  obtain ⟨t, ht⟩ := second
  refine ⟨{ c with input := s, output := t }, ?_⟩
  rw [createStreams, hs, ht]
  rfl

theorem Script.calm (k : Script) {inputCapacity outputCapacity : Nat}
    (input : inputCapacity ≤ maxCapacity) (output : outputCapacity ≤ maxCapacity)
    (steady : ∀ b n, k.action b ≠ .resize n) : k.handler.Calm inputCapacity outputCapacity := by
  refine ⟨?_, ?_⟩
  · intro w n d
    obtain ⟨c, hc⟩ := Client.createStreams_ok
      (c := k.handler.guest inputCapacity outputCapacity n d) input output
    change k.opened w _ ≠ none
    rw [Script.opened]
    rw [hc]
    cases k.streams <;> simp
  · intro w c
    change (k.request w c).1 ≠ .panicked
    rw [Script.request]
    split
    · simp
    · split
      · simp
      · next frame t _ =>
        have known := steady (frame.headD 0)
        cases ha : k.action (frame.headD 0) with
        | resize n => exact absurd ha (known n)
        | _ => simp [Script.perform]

namespace EventLoop

variable {l m : EventLoop τ ω} {waits : List Wait}

theorem clients_tearDown (h : Handler τ ω) (l : EventLoop τ ω) (d : Descriptor) (resumed : Bool) :
    (l.tearDown h d resumed).clients = (l.erase d).clients := by
  cases found : l.client? d with
  | none =>
    rw [tearDown]
    rw [found]
    refine (List.filter_eq_self.mpr ?_).symm
    intro c hc
    simpa using client?_eq_none.mp found c hc
  | some c =>
    obtain ⟨-, rfl⟩ := client?_eq_some found
    exact (alike_tearDown (h := h) found resumed).clients

theorem mem_clients_tearDowns {c : Client τ} {ds : List Descriptor}
    {resumed : Descriptor → Bool}
    (left : c ∈ (ds.foldl (fun l d => l.tearDown h d (resumed d)) l).clients) :
    c ∈ l.clients ∧ c.descriptor ∉ ds := by
  induction ds generalizing l with
  | nil => exact ⟨left, by simp⟩
  | cons d ds ih =>
    obtain ⟨before, others⟩ := ih left
    rw [clients_tearDown] at before
    obtain ⟨before, other⟩ := mem_erase.mp before
    exact ⟨before, by simp [other, others]⟩

theorem clients_shutdownAll (h : Handler τ ω) (l : EventLoop τ ω) (clearing : Clearing) :
    (l.shutdownAll h clearing).clients = [] := by
  apply List.eq_nil_iff_forall_not_mem.mpr
  intro c left
  obtain ⟨before, others⟩ := mem_clients_tearDowns left
  exact others ((clearing.perm _).mem_iff.mpr (List.mem_map_of_mem before))

theorem clients_run (h : Handler τ ω) (l : EventLoop τ ω) (waits : List Wait)
    (clearing : Clearing) : (l.run h waits clearing).clients = [] :=
  clients_shutdownAll h (l.wait h waits) clearing

/-- Whatever a run meets, a connection that the handler hears of is closed exactly once, in its last
callback; one that is declined gets none, and no client is replaced by another or left. -/
theorem callbacks_run (begins : l.Begins) (calm : h.Calm l.inputCapacity l.outputCapacity)
    (fresh : EachAccepted h Free l waits) (clearing : Clearing) :
    (∀ n, callbacks (own n (l.run h waits clearing).history) = [] ∨
      ∃ k, callbacks (own n (l.run h waits clearing).history) =
        .opened :: (List.replicate k .requested ++ [.closed])) ∧
    (∀ n d, .declined n d ∈ (l.run h waits clearing).history →
      callbacks (own n (l.run h waits clearing).history) = []) ∧
    EachAccepted h (fun m d => m.client? d = none) l waits ∧
    (l.run h waits clearing).clients = [] ∧ (l.run h waits clearing).crashed = false := by
  have ordered := begins.orderly
  have moves := moves_run fresh clearing
  have alive := (Moves.calm ordered calm moves begins.alive).1
  have empty := clients_run h l waits clearing
  have lives (n : Nat) := (Moves.lives ordered begins.lives moves alive).outside n
    (by simp [empty])
  refine ⟨?_, ?_, ?_, empty, alive⟩
  · intro n
    exact (lives n).course
  · intro n d declined
    exact (lives n).callbacks_of_declined (mem_own.mpr ⟨declined, rfl⟩)
  · apply fresh.imp
    intro m d moves alive free
    exact client?_eq_none.mpr ((Moves.orderly ordered moves alive).not_taken free)

/-- The descriptor of a connection whose peer is gone is given to another, which is still open when
a wait fails; a third is dropped at once. -/
theorem callbacks_run_reused :
    let waits : List Wait :=
      [.events
          [{ descriptor := 3, accepts := [.connection 6 true true, .connection 7 false true] }],
        .events
          [{ descriptor := 6, flags := { readable := true }, read := .bytes [1, 2] },
            { descriptor := 6, flags := { readable := true }, read := .bytes [] },
            { descriptor := 3, accepts := [.interrupted, .connection 6 true true] }],
        .failed]
    let k : Script := { frame := 1, frame_pos := Nat.one_pos, action := fun _ => .proceed }
    let history := ((create 3 5 4 4 {}).run k.handler waits {}).history
    callbacks (own 0 history) = [.opened, .requested, .requested, .requested, .closed] ∧
      callbacks (own 1 history) = [] ∧ callbacks (own 2 history) = [.opened, .closed] ∧
      ∀ n, callbacks (own n history) = [] ∨
        ∃ k, callbacks (own n history) = .opened :: (List.replicate k .requested ++ [.closed]) := by
  intro waits k history
  have calm : k.handler.Calm 4 4 := k.calm (by decide) (by decide) (by simp [k])
  have fresh : EachAccepted k.handler Free (create 3 5 4 4 {}) waits := by decide +kernel
  obtain ⟨course, -⟩ := callbacks_run (begins_create 3 5 4 4 {}) calm fresh {}
  exact ⟨by decide +kernel, by decide +kernel, by decide +kernel, course⟩

end EventLoop

end RenderBroker
