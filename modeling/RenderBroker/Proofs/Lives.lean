import RenderBroker.Proofs.Steps

namespace RenderBroker

variable {τ ω : Type}

/-- The client and the history of a connection, as long as no callback panics; the client is there
while the connection is open. -/
inductive Life (h : Handler τ ω) (inputCapacity outputCapacity n : Nat) :
    Option (Client τ) → List (Occurrence τ ω) → Prop
  | absent : Life h inputCapacity outputCapacity n none []
  | declined (d : Descriptor) : Life h inputCapacity outputCapacity n none [.declined n d]
  | opened {d : Descriptor} {w w' : ω} {c back : Client τ}
      (guest : c = h.guest inputCapacity outputCapacity n d)
      (asked : h.opened w c = some (w', back)) :
      Life h inputCapacity outputCapacity n (some (c.returned back))
        [.opened ⟨w, c⟩ ⟨w', c.returned back⟩]
  | kept {c : Client τ} {os : List (Occurrence τ ω)} {w : ω} {s : Session τ ω}
      {flags : Readiness} {r : ReadOutcome} {plan : List WriteOutcome}
      (life : Life h inputCapacity outputCapacity n (some c) os)
      (served : Session.serve h ⟨w, c, []⟩ flags r plan = (.keep, s)) :
      Life h inputCapacity outputCapacity n (some s.client) (s.history ++ os)
  | torn {c : Client τ} {os : List (Occurrence τ ω)} {w : ω} {s : Session τ ω}
      {flags : Readiness} {r : ReadOutcome} {plan : List WriteOutcome}
      (life : Life h inputCapacity outputCapacity n (some c) os)
      (served : Session.serve h ⟨w, c, []⟩ flags r plan = (.tearDown, s)) :
      Life h inputCapacity outputCapacity n none
        (.closed ⟨s.world, s.client⟩ (h.closed s.world s.client) :: (s.history ++ os))
  | stopped {c : Client τ} {os : List (Occurrence τ ω)} {w : ω}
      (life : Life h inputCapacity outputCapacity n (some c) os) :
      Life h inputCapacity outputCapacity n none (.closed ⟨w, c⟩ (h.closed w c) :: os)

namespace EventLoop

open Occurrence

structure Lives (h : Handler τ ω) (inputCapacity outputCapacity : Nat) (l : EventLoop τ ω) :
    Prop where
  sizes : l.inputCapacity = inputCapacity ∧ l.outputCapacity = outputCapacity
  inside : ∀ c ∈ l.clients, Life h inputCapacity outputCapacity c.serial (some c)
    (own c.serial l.history)
  outside : ∀ n, (∀ c ∈ l.clients, c.serial ≠ n) →
    Life h inputCapacity outputCapacity n none (own n l.history)

variable {h : Handler τ ω} {inputCapacity outputCapacity : Nat} {l m : EventLoop τ ω}

theorem Alike.lives (alike : Alike l m) (lives : Lives h inputCapacity outputCapacity l) :
    Lives h inputCapacity outputCapacity m := by
  obtain ⟨clients, world, next, history, sizes⟩ := alike
  refine ⟨?_, ?_, ?_⟩
  · rw [sizes.1, sizes.2]
    exact lives.sizes
  · rw [clients, history]
    exact lives.inside
  · rw [clients, history]
    exact lives.outside

theorem Orderly.noted_ne (o : Orderly l) : ∀ p ∈ l.history, p.serial ≠ l.nextSerial :=
  fun p hp => Nat.ne_of_lt (o.noted p hp)

theorem Lives.decline (o : Orderly l) (lives : Lives h inputCapacity outputCapacity l)
    (d : Descriptor) : Lives h inputCapacity outputCapacity (l.decline d) := by
  have others {n : Nat} (hn : n ≠ l.nextSerial) :
      own n (l.decline d).history = own n l.history := own_cons_other _ hn.symm
  refine ⟨lives.sizes, ?_, ?_⟩
  · intro c hc
    rw [others (Nat.ne_of_lt (o.known c hc))]
    exact lives.inside c hc
  · intro n hn
    by_cases same : n = l.nextSerial
    · subst same
      have mine : own l.nextSerial (l.decline d).history =
          .declined l.nextSerial d :: own l.nextSerial l.history := own_cons_same _ rfl
      rw [mine, own_eq_nil o.noted_ne]
      exact .declined d
    · rw [others same]
      exact lives.outside n hn

theorem Lives.enrol (o : Orderly l) (lives : Lives h inputCapacity outputCapacity l)
    {d : Descriptor} {w : ω} {back : Client τ}
    (asked : h.opened l.world (l.newcomer h d) = some (w, back)) :
    Lives h inputCapacity outputCapacity (l.enrol (l.newcomer h d) w back) := by
  have guest : l.newcomer h d = h.guest inputCapacity outputCapacity l.nextSerial d := by
    rw [newcomer_eq, lives.sizes.1, lives.sizes.2]
  have others {n : Nat} (hn : n ≠ l.nextSerial) :
      own n (l.enrol (l.newcomer h d) w back).history = own n l.history :=
    own_cons_other _ hn.symm
  refine ⟨lives.sizes, ?_, ?_⟩
  · intro c hc
    rcases List.mem_append.mp hc with hc | hc
    · rw [others (Nat.ne_of_lt (o.known c hc))]
      exact lives.inside c hc
    · have mine : own l.nextSerial (l.enrol (l.newcomer h d) w back).history =
          .opened ⟨l.world, l.newcomer h d⟩ ⟨w, (l.newcomer h d).returned back⟩ ::
            own l.nextSerial l.history := own_cons_same _ rfl
      rw [own_eq_nil o.noted_ne] at mine
      rw [List.mem_singleton.mp hc]
      exact mine ▸ .opened guest asked
  · intro n hn
    have other : l.nextSerial ≠ n :=
      hn _ (List.mem_append_right _ (List.mem_singleton_self _))
    rw [others other.symm]
    exact lives.outside n fun c hc => hn c (List.mem_append_left _ hc)

/-- A served client takes its place in the table again, and all others stay as they were. -/
theorem Lives.absorb (o : Orderly l) (lives : Lives h inputCapacity outputCapacity l)
    {c : Client τ} {s : Session τ ω} {flags : Readiness} {r : ReadOutcome}
    {plan : List WriteOutcome} (member : c ∈ l.clients)
    (served : Session.serve h ⟨l.world, c, []⟩ flags r plan = (.keep, s)) :
    Lives h inputCapacity outputCapacity (l.absorb s) := by
  have path := Session.path_of_serve served (by simp)
  have serial : s.client.serial = c.serial := Session.Path.serial path
  have descriptor : s.client.descriptor = c.descriptor := Session.Path.descriptor path
  have noted : ∀ p ∈ s.history, p.serial = c.serial := Session.Path.own path rfl
  have others {n : Nat} (hn : n ≠ c.serial) : own n (l.absorb s).history = own n l.history :=
    own_append_other _ fun p hp => noted p hp ▸ hn.symm
  refine ⟨lives.sizes, ?_, ?_⟩
  · intro b hb
    rcases of_mem_update hb with rfl | ⟨hb, other⟩
    · have mine : own c.serial (l.absorb s).history = s.history ++ own c.serial l.history :=
        own_append_same _ noted
      rw [serial, mine]
      exact .kept (lives.inside c member) served
    · rw [descriptor] at other
      rw [others (mt (o.same_iff hb member).mpr other)]
      exact lives.inside b hb
  · intro n hn
    have other : n ≠ c.serial := (serial ▸ hn _ (mem_update member descriptor.symm)).symm
    rw [others other]
    apply lives.outside n
    intro b hb
    by_cases same : b.descriptor = c.descriptor
    · exact o.eq_of_descriptor hb member same ▸ other.symm
    · exact hn b (mem_update_of_ne hb (descriptor ▸ same))

theorem Lives.leave (o : Orderly l) (lives : Lives h inputCapacity outputCapacity l)
    {c : Client τ} (os : List (Occurrence τ ω)) (member : c ∈ l.clients)
    (sizes : m.inputCapacity = l.inputCapacity ∧ m.outputCapacity = l.outputCapacity)
    (clients : ∀ b, b ∈ m.clients ↔ b ∈ l.clients ∧ b.descriptor ≠ c.descriptor)
    (history : m.history = os ++ l.history) (noted : ∀ p ∈ os, p.serial = c.serial)
    (life : Life h inputCapacity outputCapacity c.serial none (os ++ own c.serial l.history)) :
    Lives h inputCapacity outputCapacity m := by
  have others {n : Nat} (hn : n ≠ c.serial) : own n m.history = own n l.history := by
    rw [history]
    exact own_append_other _ fun p hp => noted p hp ▸ hn.symm
  refine ⟨?_, ?_, ?_⟩
  · rw [sizes.1, sizes.2]
    exact lives.sizes
  · intro b hb
    obtain ⟨hb, other⟩ := (clients b).mp hb
    rw [others (mt (o.same_iff hb member).mpr other)]
    exact lives.inside b hb
  · intro n hn
    by_cases same : n = c.serial
    · rw [same, history, own_append_same _ noted]
      exact life
    · rw [others same]
      apply lives.outside n
      intro b hb
      by_cases hd : b.descriptor = c.descriptor
      · exact o.eq_of_descriptor hb member hd ▸ Ne.symm same
      · exact hn b ((clients b).mpr ⟨hb, hd⟩)

theorem Lives.release (o : Orderly l) (lives : Lives h inputCapacity outputCapacity l)
    {c : Client τ} (member : c ∈ l.clients) :
    Lives h inputCapacity outputCapacity (l.release h c) := by
  refine lives.leave o [_] member ⟨rfl, rfl⟩ (fun b => mem_erase) rfl ?_
    (.stopped (lives.inside c member))
  simp [Occurrence.serial]

theorem Lives.torn (o : Orderly l) (lives : Lives h inputCapacity outputCapacity l)
    {c : Client τ} {s : Session τ ω} {flags : Readiness} {r : ReadOutcome}
    {plan : List WriteOutcome} (member : c ∈ l.clients)
    (served : Session.serve h ⟨l.world, c, []⟩ flags r plan = (.tearDown, s)) :
    Lives h inputCapacity outputCapacity ((l.absorb s).release h s.client) := by
  have path := Session.path_of_serve served (by simp)
  have descriptor : s.client.descriptor = c.descriptor := Session.Path.descriptor path
  refine lives.leave o (_ :: s.history) member ⟨rfl, rfl⟩ ?_ rfl ?_
    (.torn (lives.inside c member) served)
  · intro b
    have leaving : b ∈ ((l.absorb s).release h s.client).clients ↔
        b ∈ (l.update s.client).clients ∧ b.descriptor ≠ s.client.descriptor := mem_erase
    rw [leaving, descriptor]
    constructor
    · intro ⟨hb, other⟩
      rcases of_mem_update hb with rfl | ⟨hb, -⟩
      · exact absurd descriptor other
      · exact ⟨hb, other⟩
    · intro ⟨hb, other⟩
      exact ⟨mem_update_of_ne hb (descriptor ▸ other), other⟩
  · intro p hp
    rcases List.mem_cons.mp hp with rfl | hp
    · exact Session.Path.serial path
    · exact Session.Path.own path rfl p hp

theorem Outcome.lives (o : Orderly l) (lives : Lives h inputCapacity outputCapacity l)
    (outcome : Outcome h l m) : Lives h inputCapacity outputCapacity m := by
  cases outcome with
  | declined d alike => exact alike.lives (lives.decline o d)
  | opened free asked alike => exact alike.lives (lives.enrol o asked)
  | kept member served alike => exact alike.lives (lives.absorb o member served)
  | torn member served alike => exact alike.lives (lives.torn o member served)
  | closed member alike => exact alike.lives (lives.release o member)
  | watched alike => exact alike.lives lives

theorem Moves.lives (o : Orderly l) (lives : Lives h inputCapacity outputCapacity l)
    (moves : Moves h l m) (alive : m.crashed = false) :
    Lives h inputCapacity outputCapacity m := by
  induction moves with
  | refl => exact lives
  | tail moves move ih =>
    have alive' := move.alive alive
    have o' := Moves.orderly o moves alive'
    exact (move.outcome o' alive).lives o' (ih alive')

/-- Every connection has a life, whether it is open or not. -/
theorem Lives.life (lives : Lives h inputCapacity outputCapacity l) (n : Nat) :
    ∃ c, Life h inputCapacity outputCapacity n c (own n l.history) := by
  by_cases there : ∃ c ∈ l.clients, c.serial = n
  · obtain ⟨c, member, rfl⟩ := there
    exact ⟨some c, lives.inside c member⟩
  · exact ⟨none, lives.outside n (by simpa using there)⟩

theorem Begins.lives (begins : l.Begins) : Lives h l.inputCapacity l.outputCapacity l := by
  obtain ⟨clients, history, -⟩ := begins
  refine ⟨⟨rfl, rfl⟩, ?_, ?_⟩
  · simp [clients]
  · intro n _
    rw [history]
    exact .absent

end EventLoop

end RenderBroker
