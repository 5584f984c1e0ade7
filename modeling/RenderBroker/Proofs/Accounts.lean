import RenderBroker.Proofs.Owners
import RenderBroker.Proofs.Requests

namespace RenderBroker

open BackendCall Occurrence

section Answers

/-- A backend gets calls about contexts one after the other, and comes to another state. -/
inductive Backend.Answers (b : Backend) : List BackendCall → Backend → Prop
  | nothing : Answers b [] b
  | create {cs : List BackendCall} {c : Backend} (before : Answers b cs c) (fd : Descriptor)
      (o : RenderOptions) :
      Answers b (cs ++ [.create fd o (c.createContext fd o).1]) (c.createContext fd o).2
  | destroy {cs : List BackendCall} {c : Backend} (before : Answers b cs c) (h : ContextHandle) :
      Answers b (cs ++ [.destroy h]) (c.destroyContext h).2

variable {b c d : Backend} {cs ds : List BackendCall}

theorem Backend.Answers.trans (first : b.Answers cs c) (second : c.Answers ds d) :
    b.Answers (cs ++ ds) d := by
  induction second with
  | nothing =>
    rw [List.append_nil]
    exact first
  | create _ fd o ih =>
    rw [← List.append_assoc]
    exact ih.create fd o
  | destroy _ h ih =>
    rw [← List.append_assoc]
    exact ih.destroy h

theorem Backend.Answers.calls (answers : b.Answers cs c) : c.calls = cs.reverse ++ b.calls := by
  induction answers with
  | nothing => rfl
  | create _ fd o ih =>
    rw [calls_createContext, ih, List.reverse_append]
    rfl
  | destroy _ h ih =>
    rw [calls_destroyContext, ih, List.reverse_append]
    rfl

theorem Backend.Answers.of_nil (answers : b.Answers [] c) : c = b := by
  generalize there : [] = cs at answers
  cases answers with
  | nothing => rfl
  | create => exact absurd there.symm (List.append_ne_nil_of_right_ne_nil _ (List.cons_ne_nil _ _))
  | destroy => exact absurd there.symm (List.append_ne_nil_of_right_ne_nil _ (List.cons_ne_nil _ _))

theorem Backend.Answers.of_create {fd : Descriptor} {o : RenderOptions} {raw : Int64}
    (answers : b.Answers [.create fd o raw] c) :
    raw = (b.createContext fd o).1 ∧ c = (b.createContext fd o).2 := by
  -- the calls grow at their end, so the list must be a variable before the last one is taken off
  generalize there : [BackendCall.create fd o raw] = cs at answers
  cases answers with
  | nothing => cases there
  | @create cs _ before fd' o' =>
    have split : [] ++ [BackendCall.create fd o raw] = cs ++ [.create fd' o' _] := there
    obtain ⟨rfl, same⟩ := List.append_inj' split rfl
    cases same
    rw [before.of_nil]
    exact ⟨rfl, rfl⟩
  | @destroy cs _ before h =>
    have split : [] ++ [BackendCall.create fd o raw] = cs ++ [.destroy h] := there
    cases (List.append_inj' split rfl).2

/-- What a loopback backend keeps when it has made some contexts and some of them are gone: they are
numbered from one on, and those live that are not gone. -/
structure Accounts (limit : Option Nat) (made gone : Multiset ContextHandle) (b : Backend) :
    Prop where
  unscripted : b.creates = none
  limit_eq : b.loopback.limit = limit
  next : b.loopback.nextContext = Int64.ofNat (made.card + 1)
  numbered : ∀ h ∈ made, h.raw.toInt ≤ made.card
  distinct : made.Nodup
  live : gone.map ContextHandle.raw + ↑b.loopback.live = made.map ContextHandle.raw
  within : ∀ n, limit = some n → b.loopback.live.length ≤ n

theorem ContextHandle.raw_injective : Function.Injective raw := by
  rintro ⟨x, _⟩ ⟨y, _⟩ same
  cases same
  rfl

theorem map_held (tag : Option ContextHandle) :
    (held tag).map ContextHandle.raw = ↑(tag.map ContextHandle.raw).toList := by
  cases tag <;> rfl

theorem Backend.createContext_of_unscripted (unscripted : b.creates = none) (fd : Descriptor)
    (o : RenderOptions) :
    b.createContext fd o = (b.loopback.createContext.1,
      Backend.record { b with loopback := b.loopback.createContext.2 }
        (.create fd o b.loopback.createContext.1)) := by
  rw [createContext]
  split
  · next script scripted => cases unscripted.symm.trans scripted
  · rfl

theorem Backend.destroyContext_of_unscripted (unscripted : b.creates = none) (h : ContextHandle) :
    b.destroyContext h = (some (b.loopback.destroyContext h).1,
      Backend.record { b with loopback := (b.loopback.destroyContext h).2 } (.destroy h)) := by
  rw [destroyContext]
  split
  · next script scripted => cases unscripted.symm.trans scripted
  · rfl

namespace Accounts

variable {limit : Option Nat} {made gone : Multiset ContextHandle}

theorem live_le (accounts : Accounts limit made gone b) :
    ↑b.loopback.live ≤ made.map ContextHandle.raw := by
  rw [← accounts.live]
  exact Multiset.le_add_left _ _

theorem nodup (accounts : Accounts limit made gone b) : b.loopback.live.Nodup := by
  apply Multiset.coe_nodup.mp
  apply Multiset.nodup_of_le accounts.live_le
  exact accounts.distinct.map ContextHandle.raw_injective

theorem isFull_iff (accounts : Accounts limit made gone b) :
    b.loopback.isFull = true ↔ limit = some b.loopback.live.length := by
  have within := accounts.within
  rw [Loopback.isFull, accounts.limit_eq]
  cases limit with
  | none => simp
  | some n =>
    have := within n rfl
    simp only [decide_eq_true_eq, Option.some.injEq]
    omega

theorem refuses (accounts : Accounts limit made gone b)
    (full : limit = some b.loopback.live.length) (fd : Descriptor) (o : RenderOptions) :
    b.createContext fd o = (Loopback.refusal, b.record (.create fd o Loopback.refusal)) := by
  rw [Backend.createContext_of_unscripted accounts.unscripted, Loopback.createContext,
    if_pos (accounts.isFull_iff.mpr full)]

theorem creates (accounts : Accounts limit made gone b) (few : made.card < 2 ^ 63 - 1)
    (room : limit ≠ some b.loopback.live.length) (fd : Descriptor) (o : RenderOptions) :
    ∃ h : ContextHandle, h.raw.toInt = made.card + 1 ∧
      b.createContext fd o =
        (h.raw, Backend.record { b with loopback := { b.loopback with
          nextContext := b.loopback.nextContext + 1
          live := h.raw :: b.loopback.live } } (.create fd o h.raw)) := by
  have number : b.loopback.nextContext.toInt = made.card + 1 := by
    rw [accounts.next, Int64.toInt_ofNat_of_lt (by omega)]
    rfl
  have positive : 0 < b.loopback.nextContext := by
    rw [Int64.lt_iff_toInt_lt, number]
    change (0 : Int) < _
    omega
  have new : b.loopback.nextContext ∉ b.loopback.live := by
    intro old
    obtain ⟨h, there, same⟩ := Multiset.mem_map.mp (Multiset.mem_of_le accounts.live_le old)
    have := accounts.numbered h there
    rw [same, number] at this
    omega
  refine ⟨⟨_, positive⟩, number, ?_⟩
  rw [Backend.createContext_of_unscripted accounts.unscripted, Loopback.createContext,
    if_neg (mt accounts.isFull_iff.mp room), List.insert_of_not_mem new]

theorem create (accounts : Accounts limit made gone b) (few : made.card < 2 ^ 63 - 1)
    (fd : Descriptor) (o : RenderOptions) :
    Accounts limit (made + ↑(ContextHandle.ofRaw? (b.createContext fd o).1).toList) gone
      (b.createContext fd o).2 := by
  by_cases full : limit = some b.loopback.live.length
  · have none : made + ↑(ContextHandle.ofRaw? Loopback.refusal).toList = made := add_zero _
    rw [accounts.refuses full, none]
    obtain ⟨unscripted, limit_eq, next, numbered, distinct, live, within⟩ := accounts
    exact ⟨unscripted, limit_eq, next, numbered, distinct, live, within⟩
  · obtain ⟨h, number, answer⟩ := accounts.creates few full fd o
    have one : made + ↑(ContextHandle.ofRaw? h.raw).toList = h ::ₘ made := by
      rw [ContextHandle.ofRaw?_raw, add_comm]
      rfl
    rw [answer, one]
    refine ⟨accounts.unscripted, accounts.limit_eq, ?_, ?_, ?_, ?_, ?_⟩
    · change b.loopback.nextContext + 1 = _
      rw [Multiset.card_cons, accounts.next, Int64.ofNat_add (_ + 1)]
      rfl
    · rw [Multiset.card_cons]
      intro x there
      rcases Multiset.mem_cons.mp there with rfl | there
      · rw [number]
        rfl
      · have := accounts.numbered x there
        omega
    · refine Multiset.nodup_cons.mpr ⟨?_, accounts.distinct⟩
      intro old
      have := accounts.numbered h old
      omega
    · rw [Multiset.map_cons, ← accounts.live, ← Multiset.add_cons]
      rfl
    · intro n there
      have := accounts.within n there
      have other : n ≠ b.loopback.live.length := by
        rintro rfl
        exact full there
      change b.loopback.live.length + 1 ≤ n
      omega

theorem destroy (accounts : Accounts limit made gone b) {h : ContextHandle}
    (order : h ::ₘ gone ≤ made) : Accounts limit made (h ::ₘ gone) (b.destroyContext h).2 := by
  have member : h.raw ∈ b.loopback.live := by
    have bound := Multiset.map_le_map order (f := ContextHandle.raw)
    rw [Multiset.map_cons, ← accounts.live, ← Multiset.singleton_add, add_comm] at bound
    exact Multiset.singleton_le.mp (le_of_add_le_add_left bound)
  rw [Backend.destroyContext_of_unscripted accounts.unscripted]
  refine ⟨accounts.unscripted, accounts.limit_eq, accounts.next, accounts.numbered,
    accounts.distinct, ?_, ?_⟩
  · rw [Multiset.map_cons, Multiset.cons_add, ← Multiset.add_cons, ← accounts.live]
    apply congrArg
    exact Multiset.coe_eq_coe.mpr (List.perm_cons_erase member).symm
  · intro n there
    exact (List.erase_sublist.length_le).trans (accounts.within n there)

end Accounts

theorem created_mono (part : ds <+: cs) : created ds ≤ created cs := by
  obtain ⟨rest, rfl⟩ := part
  rw [created_append]
  exact Multiset.le_add_right _ _

/-- As long as the numbers do not run out and nothing is destroyed that was not created, the backend
keeps its accounts. -/
theorem Backend.Answers.accounts {limit : Option Nat} (answers : b.Answers cs c)
    (start : Accounts limit 0 0 b) (order : ∀ ds, ds <+: cs → destroyed ds ≤ created ds)
    (few : (created cs).card < 2 ^ 63 - 1) : Accounts limit (created cs) (destroyed cs) c := by
  induction answers with
  | nothing => exact start
  | @create cs c before fd o ih =>
    have earlier : cs <+: cs ++ [.create fd o (c.createContext fd o).1] := List.prefix_append ..
    have few := (Multiset.card_le_card (created_mono earlier)).trans_lt few
    have kept := ih (fun ds part => order ds (part.trans earlier)) few
    have gone : destroyed (cs ++ [.create fd o (c.createContext fd o).1]) = destroyed cs := by
      rw [destroyed_append]
      exact add_zero _
    rw [created_append, created_create, gone]
    exact kept.create few fd o
  | @destroy cs c before h ih =>
    have earlier : cs <+: cs ++ [.destroy h] := List.prefix_append ..
    have few := (Multiset.card_le_card (created_mono earlier)).trans_lt few
    have kept := ih (fun ds part => order ds (part.trans earlier)) few
    have made : created (cs ++ [.destroy h]) = created cs := by
      rw [created_append]
      exact add_zero _
    have gone : destroyed (cs ++ [.destroy h]) = h ::ₘ destroyed cs := by
      rw [destroyed_append, add_comm]
      rfl
    have order := order _ List.prefix_rfl
    rw [made, gone] at order ⊢
    exact kept.destroy order

structure Backend.Unused (b : Backend) : Prop where
  unscripted : b.creates = none
  next : b.loopback.nextContext = 1
  live : b.loopback.live = []

theorem Backend.Unused.accounts {b : Backend} (unused : b.Unused) :
    Accounts b.loopback.limit 0 0 b := by
  refine ⟨unused.unscripted, rfl, unused.next, by simp, Multiset.nodup_zero, ?_, ?_⟩
  · rw [unused.live]
    rfl
  · simp [unused.live]

end Answers

theorem Bridge.callsSince_of_answers {b w : Bridge} {cs : List BackendCall}
    (answers : b.backend.Answers cs w.backend) :
    w.callsSince b = cs := by
  rw [Bridge.callsSince_eq _ answers.calls, List.reverse_reverse]

namespace Renderer

variable {opts : RenderOptions} {b w : Bridge} {back : RenderClient} {e : RequestEnd}

theorem answers_createContext (opts : RenderOptions) (b : Bridge) (c : RenderClient) :
    ∃ cs, b.backend.Answers cs (createContext opts b c).1.backend := by
  rw [createContext]
  cases c.tag with
  | some h => exact ⟨[], .nothing⟩
  | none =>
    have asked : b.backend.Answers _ (b.createContext c.descriptor opts).2.backend :=
      .create .nothing c.descriptor opts
    rcases created : b.createContext c.descriptor opts with ⟨h?, w⟩
    rw [created] at asked
    cases h? <;> exact ⟨_, asked⟩

theorem answers_request {c : RenderClient} (asked : (handler opts).request b c = (e, w, back)) :
    b.backend.Answers (w.callsSince b) w.backend := by
  suffices answers : ∃ cs, b.backend.Answers cs w.backend by
    obtain ⟨cs, answers⟩ := answers
    rw [Bridge.callsSince_of_answers answers]
    exact answers
  change request opts b c = _ at asked
  rw [request] at asked
  split at asked
  · cases asked
    exact ⟨[], .nothing⟩
  · split at asked
    · cases asked
      exact ⟨[], .nothing⟩
    · next code t _ =>
      obtain ⟨-, performed⟩ := Prod.mk.inj asked
      rw [perform] at performed
      split at performed
      · have created := answers_createContext opts b { c with input := some t }
        rwa [performed] at created
      · cases performed
        exact ⟨[], .nothing⟩

theorem answers_release (b : Bridge) (c : RenderClient) :
    b.backend.Answers ((release b c).callsSince b) (release b c).backend := by
  rw [release]
  split
  · next h _ =>
    have answers : b.backend.Answers [.destroy h] (b.destroyContext h).backend :=
      .destroy .nothing h
    rw [Bridge.callsSince_of_answers answers]
    exact answers
  · rw [Bridge.callsSince_of_answers .nothing]
    exact .nothing

end Renderer

variable {opts : RenderOptions}

theorem Session.Step.answers {s t : Session (Option ContextHandle) Bridge}
    (step : Session.Step (Renderer.handler opts) s t) :
    ∃ p, t.history = p :: s.history ∧ s.world.backend.Answers p.calls t.world.backend := by
  cases step with
  | read r => exact ⟨_, rfl, .nothing⟩
  | request unmarked asked calm => exact ⟨_, rfl, Renderer.answers_request asked⟩
  | flush plan => exact ⟨_, rfl, .nothing⟩

theorem Session.Path.answers {s t : Session (Option ContextHandle) Bridge}
    (path : Session.Path (Renderer.handler opts) s t) (start : s.history = []) :
    s.world.backend.Answers (called t.history) t.world.backend := by
  induction path with
  | refl =>
    rw [start]
    exact .nothing
  | tail _ step ih =>
    obtain ⟨p, notes, answers⟩ := step.answers
    rw [notes, called_cons]
    exact ih.trans answers

theorem Ready.ask {c : RenderClient} (ready : Ready c) (blank : c.tag = none)
    (opts : RenderOptions) (b : Bridge) {flags : Readiness} (readable : flags.readable = true)
    (rest : List UInt8) (plan : List WriteOutcome) :
    ∃ s, Session.serve (Renderer.handler opts) ⟨b, c, []⟩ flags (.bytes (1 :: rest)) plan =
        (if s.client.tag = none then .tearDown else .keep, s) ∧
      s.client.tag = ContextHandle.ofRaw? (b.backend.createContext c.descriptor opts).1 ∧
      s.world.backend = (b.backend.createContext c.descriptor opts).2 := by
  obtain ⟨s, drained, -, reaction, calls, -, -, silent⟩ :=
    ready.drain opts b 1 [.read c.serial (some 1) (.ok [1])]
  have served : Session.serve (Renderer.handler opts) ⟨b, c, []⟩ flags (.bytes (1 :: rest)) plan =
      (if s.client.killed then .tearDown else .keep, s) := by
    rw [Session.serve, if_pos readable, ready.receive_session opts b (.bytes (1 :: rest))]
    dsimp only
    rw [drained]
    exact Session.finish_silent silent plan
  have calm : (if s.client.killed then Verdict.tearDown else .keep) ≠ .crash := by
    split <;> simp
  have answers := Session.Path.answers (Session.path_of_serve served calm) rfl
  rw [calls] at answers
  cases reaction with
  | passed nothing => exact absurd blank (nothing rfl)
  | asked raw asks empty calls' tag killed =>
    -- this is the only call that the backend got, so it answered as it was before
    have one : s.world.callsSince b = [.create c.descriptor opts raw] :=
      Bridge.callsSince_eq [_] calls'
    rw [one] at answers
    obtain ⟨rfl, world⟩ := Backend.Answers.of_create answers
    refine ⟨s, ?_, tag, world⟩
    rw [served, killed, tag, ready.unmarked]
    simp

namespace EventLoop

variable {l m : EventLoop (Option ContextHandle) Bridge}

theorem Step.answers {first : Backend} (answers : first.Answers (called l.history) l.world.backend)
    (step : Step (Renderer.handler opts) l m) :
    first.Answers (called m.history) m.world.backend := by
  cases step with
  | declined d alike =>
    rw [alike.history, alike.world, EventLoop.decline, called_cons]
    exact answers.trans .nothing
  | opened free asked alike =>
    obtain ⟨same, -⟩ := Renderer.opened_eq asked
    have calls := calls_opened asked
    rw [alike.history, alike.world, EventLoop.enrol, called_cons, calls, List.append_nil, same]
    exact answers
  | served member step alike =>
    have more := Session.Path.answers (.single step) rfl
    rw [alike.history, alike.world, EventLoop.absorb, called_append]
    exact answers.trans more
  | @closed c member alike =>
    have more := Renderer.answers_release l.world c
    rw [alike.history, alike.world, EventLoop.release, called_cons]
    exact answers.trans more
  | watched alike =>
    rw [alike.history, alike.world]
    exact answers

theorem Path.answers (path : Path (Renderer.handler opts) l m) (start : l.history = []) :
    l.world.backend.Answers (called m.history) m.world.backend := by
  induction path with
  | refl =>
    rw [start]
    exact .nothing
  | tail _ step ih => exact step.answers ih

theorem called_prefix_of_suffix {os ps : List (Occurrence (Option ContextHandle) Bridge)}
    (part : os <:+ ps) : called os <+: called ps := by
  obtain ⟨qs, rfl⟩ := part
  rw [called_append]
  exact List.prefix_append _ _

theorem created_few {os ps : List (Occurrence (Option ContextHandle) Bridge)} {n : Nat}
    (part : os <:+ ps) (few : (created (called ps)).card < n) : (created (called os)).card < n :=
  (Multiset.card_le_card (created_mono (called_prefix_of_suffix part))).trans_lt few

variable {limit : Option Nat}

theorem Path.accounts (path : Path (Renderer.handler opts) l m) (begins : l.Begins)
    (start : Accounts limit 0 0 l.world.backend)
    (few : (created (called m.history)).card < 2 ^ 63 - 1) :
    Accounts limit (created (called m.history)) (destroyed (called m.history)) m.world.backend :=
  have balanced : Balanced l.world m := Path.balanced begins.orderly begins.balanced path
  (Path.answers path begins.history).accounts start balanced.order few

/-- What lives in the backend is what the clients hold. -/
theorem Path.live (path : Path (Renderer.handler opts) l m) (begins : l.Begins)
    (start : Accounts limit 0 0 l.world.backend)
    (few : (created (called m.history)).card < 2 ^ 63 - 1) :
    (m.world.backend.loopback.live : Multiset Int64) = m.contexts.map ContextHandle.raw := by
  have balanced : Balanced l.world m := Path.balanced begins.orderly begins.balanced path
  have live := (Path.accounts path begins start few).live
  rw [balanced.balance, Multiset.map_add] at live
  exact add_left_cancel live

section Closings

variable {τ ω : Type} {h : Handler τ ω} {l m : EventLoop τ ω}

theorem Path.past (path : Path h l m) : l.history <:+ m.history := by
  induction path with
  | refl => exact List.suffix_rfl
  | tail _ step ih =>
    rcases step.noted with same | ⟨o, noted⟩
    · exact same ▸ ih
    · exact noted ▸ ih.trans (List.suffix_cons _ _)

theorem Path.closing {before : Moment τ ω} {w : ω} {os : List (Occurrence τ ω)}
    (path : Path h l m) (start : l.history = []) (part : .closed before w :: os <:+ m.history) :
    ∃ k, Path h l k ∧ k.history = os ∧ before.client ∈ k.clients ∧ k.world = before.world ∧
      w = h.closed before.world before.client := by
  induction path with
  | refl =>
    rw [start] at part
    cases List.suffix_nil.mp part
  | @tail k m path step ih =>
    have earlier {o : Occurrence τ ω} (noted : m.history = o :: k.history)
        (other : .closed before w ≠ o) : .closed before w :: os <:+ k.history := by
      rw [noted] at part
      apply (List.suffix_cons_iff.mp part).resolve_left
      intro whole
      exact other (List.head_eq_of_cons_eq whole)
    cases step with
    | declined d alike => exact ih (earlier alike.history (by simp))
    | opened free asked alike => exact ih (earlier alike.history (by simp))
    | @served c s member step alike =>
      obtain ⟨o, notes, kind⟩ := step.kind
      have noted : m.history = o :: k.history := alike.history.trans (congrArg (· ++ _) notes)
      apply ih (earlier noted _)
      rintro rfl
      rcases kind with ⟨_, _, _, same⟩ | ⟨_, _, _, same⟩ | ⟨_, _, same⟩ <;> cases same
    | @closed c member alike =>
      rw [alike.history] at part
      rcases List.suffix_cons_iff.mp part with whole | part
      · cases whole
        exact ⟨k, path, rfl, member, rfl, rfl⟩
      · exact ih part
    | watched alike => exact ih (alike.history ▸ part)

end Closings

theorem contexts_release (opts : RenderOptions) (o : Orderly l) {c : RenderClient}
    (member : c ∈ l.clients) :
    l.contexts = held c.tag + (l.release (Renderer.handler opts) c).contexts :=
  contexts_of_perm (o.perm_erase member)

theorem Orderly.ask (o : Orderly l) {c : RenderClient} (member : c ∈ l.clients) (ready : Ready c)
    (blank : c.tag = none) {e : Event} (here : e.descriptor = c.descriptor)
    (readable : e.flags.readable = true) {rest : List UInt8} (read : e.read = .bytes (1 :: rest)) :
    let j := l.serveClient (Renderer.handler opts) e
    let answer := l.world.backend.createContext c.descriptor opts
    j.world.backend = answer.2 ∧
      (j.client? c.descriptor).map Client.tag = (ContextHandle.ofRaw? answer.1).map some := by
  intro j answer
  obtain ⟨s, served, tag, world⟩ := ready.ask blank opts l.world readable rest e.writes
  have found : l.client? e.descriptor = some c := here ▸ o.client?_eq member
  have same : s.client.descriptor = c.descriptor := (Session.own_of_serve served rfl).1
  have back := client?_absorb (o.client?_eq member) same
  have eq : j = _ := serveClient_eq found (read ▸ served)
  cases refused : s.client.tag with
  | none =>
    rw [if_pos refused, settle, here] at eq
    have alike := alike_tearDown (h := Renderer.handler opts) back e.control.resume
    rw [← eq] at alike
    have kept : (Renderer.handler opts).closed s.world s.client = s.world := by
      change Renderer.release s.world s.client = s.world
      rw [Renderer.release, refused]
    refine ⟨?_, ?_⟩
    · rw [alike.world, ← world]
      exact congrArg Bridge.backend kept
    · rw [← tag, refused]
      apply Option.map_eq_none_iff.mpr
      apply client?_eq_none.mpr
      rw [alike.clients, ← same]
      intro a left
      exact (mem_erase.mp left).2
  | some h =>
    rw [if_neg (by simp [refused]), settle] at eq
    have alike := (l.absorb s).alike_updateInterest e.descriptor s.client.hasQueued e.control.modify
    rw [← eq] at alike
    have kept : j.client? c.descriptor = (l.absorb s).client? c.descriptor :=
      congrArg (List.find? _) alike.clients
    refine ⟨?_, ?_⟩
    · rw [alike.world, ← world]
      rfl
    · rw [kept, back, ← tag, refused]
      exact congrArg some refused

theorem Path.standing (path : Path (Renderer.handler opts) l m) (begins : l.Begins)
    (start : Accounts limit 0 0 l.world.backend)
    (few : (created (called m.history)).card < 2 ^ 63 - 1) :
    let live := (lastWorld l.world m.history).backend.loopback.live
    let handles := ((standings m.history).filterMap Standing.tag).map ContextHandle.raw
    live.Perm handles ∧ handles.Nodup ∧ (∀ raw ∈ handles, 0 < raw) ∧
      ∀ n, limit = some n → handles.length ≤ n := by
  intro live handles
  have world : m.world = lastWorld l.world m.history := Path.world path begins.history
  have accounts := Path.accounts path begins start few
  have perm : live.Perm handles := by
    apply Multiset.coe_eq_coe.mp
    have balance := Path.live path begins start few
    rw [(Path.orderly begins.orderly path).contexts_eq, world] at balance
    exact balance
  rw [world] at accounts
  refine ⟨perm, perm.nodup_iff.mp accounts.nodup, ?_, ?_⟩
  · intro raw there
    obtain ⟨h, -, rfl⟩ := List.mem_map.mp there
    exact h.raw_pos
  · intro n there
    rw [← perm.length_eq]
    exact accounts.within n there

theorem Path.closing_live {before : Moment (Option ContextHandle) Bridge} {w : Bridge}
    {os : List (Occurrence (Option ContextHandle) Bridge)}
    (path : Path (Renderer.handler opts) l m) (begins : l.Begins)
    (start : Accounts limit 0 0 l.world.backend)
    (few : (created (called m.history)).card < 2 ^ 63 - 1)
    (part : .closed before w :: os <:+ m.history) :
    before.world.backend.loopback.live.Perm
      ((before.client.tag.map ContextHandle.raw).toList ++ w.backend.loopback.live) := by
  obtain ⟨j, path, noted, member, world, rfl⟩ := Path.closing path begins.history part
  have later := path.tail (.closed member (.refl _))
  have closing : (j.release (Renderer.handler opts) before.client).history =
      .closed before ((Renderer.handler opts).closed before.world before.client) :: os := by
    rw [EventLoop.release, noted, world]
  have fewer := created_few part few
  have whole := Path.live path begins start (noted ▸ created_few (List.suffix_cons _ _) fewer)
  have left := Path.live later begins start (closing ▸ fewer)
  rw [contexts_release opts (Path.orderly begins.orderly path) member, Multiset.map_add, ← left,
    map_held, world] at whole
  apply Multiset.coe_eq_coe.mp
  rw [whole, ← Multiset.coe_add, EventLoop.release, world]

/-- A client without a context that asks for one gets it unless the limit is reached just then;
otherwise it is torn down, and nothing else changes. -/
theorem Orderly.serve_ask (o : Orderly l) {made gone : Multiset ContextHandle}
    (accounts : Accounts limit made gone l.world.backend) (few : made.card < 2 ^ 63 - 1)
    {c : RenderClient} (member : c ∈ l.clients) (ready : Ready c) (blank : c.tag = none) {e : Event}
    (here : e.descriptor = c.descriptor) (readable : e.flags.readable = true) {rest : List UInt8}
    (read : e.read = .bytes (1 :: rest))
    (going : (l.serveClient (Renderer.handler opts) e).crashed = false) :
    let j := l.serveClient (Renderer.handler opts) e
    let live := l.world.backend.loopback.live
    (∀ a, a.descriptor ≠ c.descriptor → (a ∈ j.clients ↔ a ∈ l.clients)) ∧
      (limit = some live.length →
        j.client? c.descriptor = none ∧ j.world.backend.loopback.live = live) ∧
      (limit ≠ some live.length →
        ∃ h, (j.client? c.descriptor).map Client.tag = some (some h) ∧
          h.raw ∉ live ∧ j.world.backend.loopback.live = h.raw :: live) := by
  intro j live
  obtain ⟨world, tag⟩ := o.ask member ready blank here readable read
  refine ⟨?_, ?_, ?_⟩
  · intro a other
    exact mem_serveClient (here ▸ other) going
  · intro full
    rw [accounts.refuses full] at world tag
    rw [world]
    exact ⟨Option.map_eq_none_iff.mp tag, rfl⟩
  · intro room
    have new := (accounts.create few c.descriptor opts).nodup
    obtain ⟨h, -, answer⟩ := accounts.creates few room c.descriptor opts
    rw [answer, ContextHandle.ofRaw?_raw] at tag
    rw [answer] at world new
    rw [world]
    exact ⟨h, tag, (List.nodup_cons.mp new).1, rfl⟩

variable {listener waker : Descriptor} {b : Bridge} {waits : List Wait}

/-- In every run over a loopback backend the live contexts are those that the clients hold:
distinct, positive, never given out twice, and at most the limit. A client is refused one just at
the limit. -/
theorem accounts_run (unused : b.backend.Unused)
    (fresh : EachAccepted (Renderer.handler opts) Free (Renderer.loop listener waker b) waits)
    (clearing : Clearing)
    (few : (created (((Renderer.loop listener waker b).run (Renderer.handler opts) waits
      clearing).world.callsSince b)).card < 2 ^ 63 - 1) :
    let l := Renderer.loop listener waker b
    let m := l.wait (Renderer.handler opts) waits
    let k := l.run (Renderer.handler opts) waits clearing
    let limit := b.backend.loopback.limit
    (∀ os, os <:+ k.history →
      let live := (lastWorld b os).backend.loopback.live
      let handles := ((standings os).filterMap Standing.tag).map ContextHandle.raw
      live.Perm handles ∧ handles.Nodup ∧ (∀ raw ∈ handles, 0 < raw) ∧
        ∀ n, limit = some n → handles.length ≤ n) ∧
    m.world.backend.loopback.live.Perm ((m.clients.filterMap Client.tag).map ContextHandle.raw) ∧
    (created (k.world.callsSince b)).Nodup ∧
    (∀ before w os, .closed before w :: os <:+ k.history →
      before.world.backend.loopback.live.Perm
        ((before.client.tag.map ContextHandle.raw).toList ++ w.backend.loopback.live)) ∧
    ∀ c ∈ m.clients, c.tag = none → ∀ e rest, e.descriptor = c.descriptor →
      e.flags.readable = true → e.read = .bytes (1 :: rest) →
      let j := m.handle (Renderer.handler opts) e
      let live := m.world.backend.loopback.live
      (∀ a, a.descriptor ≠ c.descriptor → (a ∈ j.clients ↔ a ∈ m.clients)) ∧
        (limit = some live.length →
          j.client? c.descriptor = none ∧ j.world.backend.loopback.live = live) ∧
        (limit ≠ some live.length →
          ∃ h, (j.client? c.descriptor).map Client.tag = some (some h) ∧
            h.raw ∉ live ∧ j.world.backend.loopback.live = h.raw :: live) := by
  intro l m k limit
  have begins : l.Begins := Renderer.begins_loop ..
  have ordered := begins.orderly
  have waited : Moves (Renderer.handler opts) l m := moves_wait fresh
  have moves : Moves (Renderer.handler opts) l k := moves_run fresh clearing
  have toward := waited.path ordered (Renderer.alive_of_moves waited)
  have path := moves.path ordered (Renderer.alive_of_moves moves)
  have balanced : Balanced b k := Path.balanced ordered begins.balanced path
  have start : Accounts limit 0 0 l.world.backend := unused.accounts
  rw [balanced.callsSince] at few
  have still : Moves (Renderer.handler opts) m k := moves_shutdownAll clearing
  have o := Path.orderly ordered toward
  have past : m.history <:+ k.history := Path.past (still.path o (Renderer.alive_of_moves moves))
  refine ⟨?_, ?_, ?_, ?_, ?_⟩
  · intro os part
    obtain ⟨j, path, rfl⟩ := Path.through path begins.history part
    exact Path.standing path begins start (created_few part few)
  · apply Multiset.coe_eq_coe.mp
    exact Path.live toward begins start (created_few past few)
  · rw [balanced.callsSince]
    exact (Path.accounts path begins start few).distinct
  · intro before w os part
    exact Path.closing_live path begins start few part
  · intro c member blank e rest here readable read
    have alive := Renderer.alive_of_moves waited
    have accounts := Path.accounts toward begins start (created_few past few)
    have ready := ((Renderer.lives_of_moves waited).inside c member).conducted.2
    have registered : Registered m :=
      Moves.registered (registered_create ..) ordered waited alive
    obtain ⟨listener, waker⟩ := registered.alone member
    rw [handle_of_client alive (here ▸ waker) (here ▸ listener)]
    exact o.serve_ask accounts (created_few past few) member ready blank here readable read
      (Renderer.alive_of_moves (waited.tail (.serve e alive)))

/-- One context may live at a time. The first client has it, and the second is refused; the third
gets one when the first has gone, and the fourth is refused because of it. -/
theorem accounts_run_limited :
    let asks (d : Descriptor) : Event :=
      { descriptor := d, flags := { readable := true }, read := .bytes [1] }
    let waits : List Wait :=
      [.events
        [{ descriptor := 3
           accepts := [.connection 6 true true, .connection 7 true true,
            .connection 8 true true, .connection 9 true true] },
          asks 6, asks 7, { descriptor := 6, flags := { readable := true }, read := .bytes [] },
          asks 8]]
    let b : Bridge := { backend := { loopback := { limit := some 1 } } }
    let l := Renderer.loop 3 5 b
    let m := l.wait (Renderer.handler {}) waits
    let k := l.run (Renderer.handler {}) waits {}
    created (k.world.callsSince b) = {⟨1, by decide⟩, ⟨2, by decide⟩} ∧
      m.clients.map (fun c => (c.descriptor, c.tag.map ContextHandle.raw)) =
        [(8, some 2), (9, none)] ∧
      (created (k.world.callsSince b)).Nodup ∧
      ∀ c ∈ m.clients, c.tag = none → c.descriptor = 9 →
        (m.handle (Renderer.handler {}) (asks 9)).client? c.descriptor = none := by
  intro asks waits b l m k
  have fresh : EachAccepted (Renderer.handler {}) Free l waits := by decide +kernel
  have few : (created (k.world.callsSince b)).card < 2 ^ 63 - 1 := by decide +kernel
  obtain ⟨-, -, nodup, -, asked⟩ := accounts_run ⟨rfl, rfl, rfl⟩ fresh {} few
  refine ⟨by decide +kernel, by decide +kernel, nodup, ?_⟩
  intro c member blank ninth
  obtain ⟨-, refused, -⟩ := asked c member blank (asks 9) [] ninth.symm rfl rfl
  exact (refused (by decide +kernel)).1

end EventLoop

end RenderBroker
