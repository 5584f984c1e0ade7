import Mathlib.Logic.Relation
import RenderBroker.Loop.Service
import RenderBroker.Proofs.History

namespace RenderBroker

namespace Client

variable {τ : Type}

@[simp] theorem standing_receive (c : Client τ) (r : ReadOutcome) :
    (c.receive r).client.standing = c.standing := by
  rw [receive]
  split <;> rfl

@[simp] theorem standing_flush (c : Client τ) (plan : List WriteOutcome) :
    (c.flush plan).2.standing = c.standing := by
  rw [flush]
  split <;> rfl

@[simp] theorem serial_receive (c : Client τ) (r : ReadOutcome) :
    (c.receive r).client.serial = c.serial :=
  congrArg Standing.serial (c.standing_receive r)

@[simp] theorem descriptor_receive (c : Client τ) (r : ReadOutcome) :
    (c.receive r).client.descriptor = c.descriptor :=
  congrArg Standing.descriptor (c.standing_receive r)

@[simp] theorem tag_receive (c : Client τ) (r : ReadOutcome) : (c.receive r).client.tag = c.tag :=
  congrArg Standing.tag (c.standing_receive r)

@[simp] theorem killed_receive (c : Client τ) (r : ReadOutcome) :
    (c.receive r).client.killed = c.killed :=
  congrArg Standing.killed (c.standing_receive r)

@[simp] theorem serial_flush (c : Client τ) (plan : List WriteOutcome) :
    (c.flush plan).2.serial = c.serial :=
  congrArg Standing.serial (c.standing_flush plan)

@[simp] theorem descriptor_flush (c : Client τ) (plan : List WriteOutcome) :
    (c.flush plan).2.descriptor = c.descriptor :=
  congrArg Standing.descriptor (c.standing_flush plan)

@[simp] theorem tag_flush (c : Client τ) (plan : List WriteOutcome) :
    (c.flush plan).2.tag = c.tag :=
  congrArg Standing.tag (c.standing_flush plan)

@[simp] theorem killed_flush (c : Client τ) (plan : List WriteOutcome) :
    (c.flush plan).2.killed = c.killed :=
  congrArg Standing.killed (c.standing_flush plan)

end Client

namespace Session

variable {τ ω : Type}

def heard (s : Session τ ω) (r : ReadOutcome) : Session τ ω :=
  { s with client := (s.client.receive r).client }.note
    (.read s.client.serial (s.client.receive r).offered (s.client.receive r).result)

def wrote (s : Session τ ω) (plan : List WriteOutcome) : Session τ ω :=
  { s with client := (s.client.flush plan).2 }.note
    (.flushed (s.client.flush plan).2.serial (s.client.flush plan).1)

inductive Step (h : Handler τ ω) (s : Session τ ω) : Session τ ω → Prop
  | read (r : ReadOutcome) : Step h s (s.heard r)
  | request {e : RequestEnd} {world : ω} {back : Client τ} (unmarked : s.client.killed = false)
      (asked : h.request s.world s.client = (e, world, back)) (calm : e ≠ .panicked) :
      Step h s (s.requested e world back)
  | flush (plan : List WriteOutcome) : Step h s (s.wrote plan)

abbrev Path (h : Handler τ ω) : Session τ ω → Session τ ω → Prop :=
  Relation.ReflTransGen (Step h)

variable {h : Handler τ ω} {s t : Session τ ω}

theorem Step.serial (step : Step h s t) : t.client.serial = s.client.serial := by
  cases step with
  | read r => exact s.client.serial_receive r
  | request => rfl
  | flush plan => exact s.client.serial_flush plan

theorem Step.descriptor (step : Step h s t) : t.client.descriptor = s.client.descriptor := by
  cases step with
  | read r => exact s.client.descriptor_receive r
  | request => rfl
  | flush plan => exact s.client.descriptor_flush plan

/-- A step notes one thing down, and does not look at what was noted down before. -/
theorem Step.notes (step : Step h s t) :
    ∃ o : Occurrence τ ω, t.history = o :: s.history ∧ o.serial = s.client.serial ∧
      Step h { s with history := [] } { t with history := [o] } := by
  cases step with
  | read r => exact ⟨_, rfl, rfl, .read r⟩
  | request unmarked asked calm => exact ⟨_, rfl, rfl, .request unmarked asked calm⟩
  | flush plan => exact ⟨_, rfl, s.client.serial_flush plan, .flush plan⟩

theorem Path.serial (path : Path h s t) : t.client.serial = s.client.serial := by
  induction path with
  | refl => rfl
  | tail _ step ih => exact step.serial.trans ih

theorem Path.descriptor (path : Path h s t) : t.client.descriptor = s.client.descriptor := by
  induction path with
  | refl => rfl
  | tail _ step ih => exact step.descriptor.trans ih

theorem Path.own (path : Path h s t) (start : s.history = []) :
    ∀ o ∈ t.history, o.serial = s.client.serial := by
  induction path with
  | refl => simp [start]
  | tail path step ih =>
    obtain ⟨o, hn, ho, _⟩ := step.notes
    rw [hn]
    intro p hp
    rcases List.mem_cons.mp hp with rfl | hp
    · exact ho.trans (Path.serial path)
    · exact ih p hp

theorem Step.kind (step : Step h s t) :
    ∃ o : Occurrence τ ω, t.history = o :: s.history ∧
      ((∃ n offered result, o = .read n offered result) ∨
        (∃ e before after, o = .requested e before after) ∨ ∃ n f, o = .flushed n f) := by
  cases step with
  | read r => exact ⟨_, rfl, .inl ⟨_, _, _, rfl⟩⟩
  | request unmarked asked calm => exact ⟨_, rfl, .inr (.inl ⟨_, _, _, rfl⟩)⟩
  | flush plan => exact ⟨_, rfl, .inr (.inr ⟨_, _, rfl⟩)⟩

theorem Path.kinds (path : Path h s t) (start : s.history = []) :
    ∀ o ∈ t.history, (∃ n offered result, o = .read n offered result) ∨
      (∃ e before after, o = .requested e before after) ∨ ∃ n f, o = .flushed n f := by
  induction path with
  | refl => simp [start]
  | tail _ step ih =>
    obtain ⟨o, hn, ho⟩ := step.kind
    rw [hn]
    intro p hp
    rcases List.mem_cons.mp hp with rfl | hp
    · exact ho
    · exact ih p hp

/-- What was opened was opened before the session. -/
theorem Path.mem_of_opened (path : Path h s t) (start : s.history = [])
    {os : List (Occurrence τ ω)} {before after : Moment τ ω}
    (opened : .opened before after ∈ t.history ++ os) : .opened before after ∈ os := by
  apply (List.mem_append.mp opened).resolve_left
  intro opened
  rcases Path.kinds path start _ opened with
    ⟨_, _, _, same⟩ | ⟨_, _, _, same⟩ | ⟨_, _, same⟩ <;> cases same

theorem receive_eq (h : Handler τ ω) (s : Session τ ω) (r : ReadOutcome) :
    s.receive h r =
      match (s.client.receive r).result with
      | .ok [] => (.tearDown, s.heard r)
      | .ok _ => (s.heard r).drain h
      | .error f => if f.isTransient then (.keep, s.heard r) else (.tearDown, s.heard r) :=
  rfl

theorem flush_eq (s : Session τ ω) (plan : List WriteOutcome) :
    s.flush plan =
      if s.client.hasQueued then
        match (s.client.flush plan).1.ending with
        | .failed _ => (.tearDown, s.wrote plan)
        | _ => (.keep, s.wrote plan)
      else (.keep, s) :=
  rfl

theorem drain_marked (h : Handler τ ω) (marked : s.client.killed = true) :
    s.drain h = (.keep, s) := by
  rw [drain, if_pos marked]

theorem drain_idle {w : ω} {c : Client τ} (unmarked : s.client.killed = false)
    (asked : h.request s.world s.client = (.idle, w, c)) :
    s.drain h = (.keep, s.requested .idle w c) := by
  rw [drain, if_neg (by simp [unmarked])]
  split <;> simp_all

theorem drain_served {w : ω} {c : Client τ} (unmarked : s.client.killed = false)
    (asked : h.request s.world s.client = (.served, w, c)) :
    s.drain h = (s.requested .served w c).drain h := by
  rw [drain, if_neg (by simp [unmarked])]
  split <;> simp_all

theorem finish_silent (silent : s.client.output = none) (plan : List WriteOutcome) :
    s.finish plan = (if s.client.killed then .tearDown else .keep, s) := by
  have none : s.client.hasQueued = false := by simp [Client.hasQueued, silent]
  rw [finish, flush, if_neg (by simp [none])]

theorem path_drain (h : Handler τ ω) (s : Session τ ω) (calm : (s.drain h).1 ≠ .crash) :
    Path h s (s.drain h).2 := by
  fun_induction drain h s with
  | case1 s marked => exact .refl
  | case2 s unmarked world back asked =>
    exact .single (.request (by simpa using unmarked) asked (by simp))
  | case3 s unmarked world back asked ih =>
    exact .head (.request (by simpa using unmarked) asked (by simp)) (ih calm)
  | case4 s unmarked world back asked =>
    exact .single (.request (by simpa using unmarked) asked (by simp))
  | case5 => exact absurd rfl calm

theorem path_receive (h : Handler τ ω) (s : Session τ ω) (r : ReadOutcome)
    (calm : (s.receive h r).1 ≠ .crash) : Path h s (s.receive h r).2 := by
  have first : Step h s (s.heard r) := .read r
  rw [receive_eq] at calm ⊢
  cases hr : (s.client.receive r).result with
  | error f =>
    dsimp only
    split <;> exact .single first
  | ok bytes =>
    cases bytes with
    | nil => exact .single first
    | cons b bytes =>
      rw [hr] at calm
      exact .head first (path_drain h _ calm)

theorem path_flush (h : Handler τ ω) (s : Session τ ω) (plan : List WriteOutcome) :
    Path h s (s.flush plan).2 := by
  rw [flush_eq]
  split
  · split <;> exact .single (.flush plan)
  · exact .refl

theorem path_finish (h : Handler τ ω) (s : Session τ ω) (plan : List WriteOutcome) :
    Path h s (s.finish plan).2 := by
  have path := path_flush h s plan
  rw [finish]
  split
  · next hf => rwa [hf] at path
  · exact path

theorem path_serve (h : Handler τ ω) (s : Session τ ω) (flags : Readiness) (r : ReadOutcome)
    (plan : List WriteOutcome) (calm : (s.serve h flags r plan).1 ≠ .crash) :
    Path h s (s.serve h flags r plan).2 := by
  have path := path_receive h s r
  rw [serve] at calm ⊢
  cases hf : flags.readable with
  | true =>
    simp only [hf, if_true] at calm ⊢
    rcases hr : s.receive h r with ⟨v, t⟩
    rw [hr] at calm path
    cases v with
    | keep => exact (path (by simp)).trans (path_finish h t plan)
    | tearDown => exact path calm
    | crash => exact absurd rfl calm
  | false =>
    simp only [Bool.false_eq_true, if_false]
    split
    · exact path_finish h s plan
    · split <;> exact .refl

theorem path_of_serve {flags : Readiness} {r : ReadOutcome} {plan : List WriteOutcome}
    {v : Verdict} (served : s.serve h flags r plan = (v, t)) (calm : v ≠ .crash) :
    Path h s t := by
  have path := path_serve h s flags r plan (by rwa [served])
  rwa [served] at path

theorem drain_calm (h : Handler τ ω) (s : Session τ ω)
    (calm : ∀ w c, (h.request w c).1 ≠ .panicked) : (s.drain h).1 ≠ .crash := by
  fun_induction drain h s with
  | case3 s unmarked world back asked ih => exact ih
  | case5 s unmarked world back asked => exact absurd (congrArg Prod.fst asked) (calm _ _)
  | _ => simp

theorem receive_calm (h : Handler τ ω) (s : Session τ ω) (r : ReadOutcome)
    (calm : ∀ w c, (h.request w c).1 ≠ .panicked) : (s.receive h r).1 ≠ .crash := by
  rw [receive_eq]
  split
  · simp
  · exact drain_calm h _ calm
  · split <;> simp

theorem finish_calm (s : Session τ ω) (plan : List WriteOutcome) :
    (s.finish plan).1 ≠ .crash := by
  have flushed : (s.flush plan).1 ≠ .crash := by
    rw [flush_eq]
    split
    · split <;> simp
    · simp
  rw [finish]
  split
  · split <;> simp
  · exact flushed

/-- A session ends in a crash only if a request panics. -/
theorem serve_calm (h : Handler τ ω) (s : Session τ ω) (flags : Readiness) (r : ReadOutcome)
    (plan : List WriteOutcome) (calm : ∀ w c, (h.request w c).1 ≠ .panicked) :
    (s.serve h flags r plan).1 ≠ .crash := by
  rw [serve]
  split
  · split
    · exact finish_calm _ plan
    · exact receive_calm h s r calm
  · split
    · exact finish_calm s plan
    · split <;> simp

end Session

end RenderBroker
