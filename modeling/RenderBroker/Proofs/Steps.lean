import Mathlib.Data.List.Nodup
import RenderBroker.Proofs.Moves
import RenderBroker.Proofs.Sessions

namespace RenderBroker

variable {τ ω : Type}

namespace Handler

def guest (h : Handler τ ω) (inputCapacity outputCapacity n : Nat) (d : Descriptor) :
    Client τ :=
  { descriptor := d, serial := n, tag := h.blank, inputCapacity, outputCapacity }

/-- No callback panics for the connections of a loop with these sizes of streams. -/
structure Calm (h : Handler τ ω) (inputCapacity outputCapacity : Nat) : Prop where
  opened : ∀ w n d, h.opened w (h.guest inputCapacity outputCapacity n d) ≠ none
  request : ∀ w c, (h.request w c).1 ≠ .panicked

end Handler

namespace EventLoop

/-- Two loops that differ at most in what they watch. -/
structure Alike (l m : EventLoop τ ω) : Prop where
  clients : m.clients = l.clients
  world : m.world = l.world
  next : m.nextSerial = l.nextSerial
  history : m.history = l.history
  sizes : m.inputCapacity = l.inputCapacity ∧ m.outputCapacity = l.outputCapacity

/-- A connection is dropped before the handler hears of it. -/
def decline (l : EventLoop τ ω) (d : Descriptor) : EventLoop τ ω :=
  { l with
    nextSerial := l.nextSerial + 1
    history := .declined l.nextSerial d :: l.history }

/-- A connection joins the table when the handler has heard of it. -/
def enrol (l : EventLoop τ ω) (c : Client τ) (world : ω) (back : Client τ) : EventLoop τ ω :=
  { l with
    world
    clients := l.clients ++ [c.returned back]
    nextSerial := l.nextSerial + 1
    history := .opened ⟨l.world, c⟩ ⟨world, c.returned back⟩ :: l.history }

def absorb (l : EventLoop τ ω) (s : Session τ ω) : EventLoop τ ω :=
  { l.update s.client with world := s.world, history := s.history ++ l.history }

/-- What the verdict on a client comes to when its session has put it back. -/
def settle (h : Handler τ ω) (l : EventLoop τ ω) (e : Event) (wanted : Bool) :
    Verdict → EventLoop τ ω
  | .keep => l.updateInterest e.descriptor wanted e.control.modify
  | .tearDown => l.tearDown h e.descriptor e.control.resume
  | .crash => l.crash

def release (h : Handler τ ω) (l : EventLoop τ ω) (c : Client τ) : EventLoop τ ω :=
  { l.erase c.descriptor with
    world := h.closed l.world c
    history := .closed ⟨l.world, c⟩ (h.closed l.world c) :: l.history }

/-- A step, in which one thing is noted down at most. -/
inductive Step (h : Handler τ ω) (l m : EventLoop τ ω) : Prop
  | declined (d : Descriptor) (alike : Alike (l.decline d) m)
  | opened {d : Descriptor} {w : ω} {back : Client τ} (free : l.Free d)
      (asked : h.opened l.world (l.newcomer h d) = some (w, back))
      (alike : Alike (l.enrol (l.newcomer h d) w back) m)
  | served {c : Client τ} {s : Session τ ω} (member : c ∈ l.clients)
      (step : Session.Step h ⟨l.world, c, []⟩ s) (alike : Alike (l.absorb s) m)
  | closed {c : Client τ} (member : c ∈ l.clients) (alike : Alike (l.release h c) m)
  | watched (alike : Alike l m)

/-- What a move comes to if no callback panics; a client is served to the end of its event. -/
inductive Outcome (h : Handler τ ω) (l m : EventLoop τ ω) : Prop
  | declined (d : Descriptor) (alike : Alike (l.decline d) m)
  | opened {d : Descriptor} {w : ω} {back : Client τ} (free : l.Free d)
      (asked : h.opened l.world (l.newcomer h d) = some (w, back))
      (alike : Alike (l.enrol (l.newcomer h d) w back) m)
  | kept {c : Client τ} {s : Session τ ω} {flags : Readiness} {r : ReadOutcome}
      {plan : List WriteOutcome} (member : c ∈ l.clients)
      (served : Session.serve h ⟨l.world, c, []⟩ flags r plan = (.keep, s))
      (alike : Alike (l.absorb s) m)
  | torn {c : Client τ} {s : Session τ ω} {flags : Readiness} {r : ReadOutcome}
      {plan : List WriteOutcome} (member : c ∈ l.clients)
      (served : Session.serve h ⟨l.world, c, []⟩ flags r plan = (.tearDown, s))
      (alike : Alike ((l.absorb s).release h s.client) m)
  | closed {c : Client τ} (member : c ∈ l.clients) (alike : Alike (l.release h c) m)
  | watched (alike : Alike l m)

abbrev Path (h : Handler τ ω) : EventLoop τ ω → EventLoop τ ω → Prop :=
  Relation.ReflTransGen (Step h)

/-- The table is what the history says, and its clients are told apart by their descriptors as well
as by their serial numbers. -/
structure Orderly (l : EventLoop τ ω) : Prop where
  table : l.clients.map Client.standing = Occurrence.standings l.history
  descriptors : (l.clients.map Client.descriptor).Nodup
  serials : (l.clients.map Client.serial).Nodup
  known : ∀ c ∈ l.clients, c.serial < l.nextSerial
  noted : ∀ o ∈ l.history, o.serial < l.nextSerial

variable {h : Handler τ ω} {l m : EventLoop τ ω}

theorem Alike.refl (l : EventLoop τ ω) : Alike l l :=
  ⟨rfl, rfl, rfl, rfl, rfl, rfl⟩

theorem Alike.orderly (alike : Alike l m) (o : Orderly l) : Orderly m := by
  obtain ⟨clients, world, next, history, -⟩ := alike
  refine ⟨?_, ?_, ?_, ?_, ?_⟩
  · rw [clients, history]
    exact o.table
  · rw [clients]
    exact o.descriptors
  · rw [clients]
    exact o.serials
  · rw [clients, next]
    exact o.known
  · rw [history, next]
    exact o.noted

theorem Orderly.eq_of_descriptor (o : Orderly l) {b c : Client τ} (hb : b ∈ l.clients)
    (hc : c ∈ l.clients) (same : b.descriptor = c.descriptor) : b = c :=
  List.inj_on_of_nodup_map o.descriptors hb hc same

theorem Orderly.eq_of_serial (o : Orderly l) {b c : Client τ} (hb : b ∈ l.clients)
    (hc : c ∈ l.clients) (same : b.serial = c.serial) : b = c :=
  List.inj_on_of_nodup_map o.serials hb hc same

theorem Orderly.same_iff (o : Orderly l) {b c : Client τ} (hb : b ∈ l.clients)
    (hc : c ∈ l.clients) : b.descriptor = c.descriptor ↔ b.serial = c.serial :=
  ⟨fun same => congrArg _ (o.eq_of_descriptor hb hc same),
    fun same => congrArg _ (o.eq_of_serial hb hc same)⟩

theorem client?_eq_some {d : Descriptor} {c : Client τ} (found : l.client? d = some c) :
    c ∈ l.clients ∧ c.descriptor = d :=
  ⟨List.mem_of_find?_eq_some found, by simpa using List.find?_some found⟩

theorem client?_eq_none {d : Descriptor} :
    l.client? d = none ↔ ∀ c ∈ l.clients, c.descriptor ≠ d := by
  simp [client?]

theorem Orderly.client?_eq (o : Orderly l) {c : Client τ} (member : c ∈ l.clients) :
    l.client? c.descriptor = some c := by
  cases hf : l.client? c.descriptor with
  | none => exact absurd rfl (client?_eq_none.mp hf c member)
  | some b =>
    obtain ⟨hb, same⟩ := client?_eq_some hf
    rw [o.eq_of_descriptor hb member same]

theorem Orderly.not_taken (o : Orderly l) {d : Descriptor} (free : l.Free d) :
    ∀ c ∈ l.clients, c.descriptor ≠ d := by
  intro c hc
  have hs : c.standing ∈ Occurrence.standings l.history := by
    rw [← o.table]
    exact List.mem_map_of_mem hc
  exact free.2.2 _ hs

theorem mem_update {b c : Client τ} (member : b ∈ l.clients)
    (same : b.descriptor = c.descriptor) : c ∈ (l.update c).clients :=
  List.mem_map.mpr ⟨b, member, if_pos same⟩

theorem absorb_absorb (l : EventLoop τ ω) {s t : Session τ ω} {o : Occurrence τ ω}
    (same : t.client.descriptor = s.client.descriptor) (notes : t.history = o :: s.history) :
    (l.absorb s).absorb { t with history := [o] } = l.absorb t := by
  have table : ((l.update s.client).update t.client).clients = (l.update t.client).clients := by
    simp only [update, List.map_map]
    apply List.map_congr_left
    intro b _
    simp only [Function.comp_apply, same]
    split <;> simp_all
  simp only [absorb, update, notes] at table ⊢
  simp [table]

theorem Orderly.absorb_self (o : Orderly l) {c : Client τ} (member : c ∈ l.clients) :
    l.absorb ⟨l.world, c, []⟩ = l := by
  have table : (l.update c).clients = l.clients := by
    refine (List.map_congr_left ?_).trans (List.map_id _)
    intro b hb
    by_cases same : b.descriptor = c.descriptor
    · rw [if_pos same, id, o.eq_of_descriptor hb member same]
    · exact if_neg same
  simp only [absorb, update] at table ⊢
  simp [table]

theorem of_mem_update {b c : Client τ} (hb : b ∈ (l.update c).clients) :
    b = c ∨ b ∈ l.clients ∧ b.descriptor ≠ c.descriptor := by
  obtain ⟨a, ha, rfl⟩ := List.mem_map.mp hb
  by_cases same : a.descriptor = c.descriptor
  · exact .inl (if_pos same)
  · rw [if_neg same]
    exact .inr ⟨ha, same⟩

theorem mem_update_of_ne {b c : Client τ} (member : b ∈ l.clients)
    (other : b.descriptor ≠ c.descriptor) : b ∈ (l.update c).clients :=
  List.mem_map.mpr ⟨b, member, if_neg other⟩

theorem mem_erase {b : Client τ} {d : Descriptor} :
    b ∈ (l.erase d).clients ↔ b ∈ l.clients ∧ b.descriptor ≠ d := by
  simp [erase]

theorem Orderly.perm_erase (o : Orderly l) {c : Client τ} (member : c ∈ l.clients) :
    l.clients.Perm (c :: (l.erase c.descriptor).clients) := by
  have nodup := List.Nodup.of_map _ o.descriptors
  have gone : c ∉ (l.erase c.descriptor).clients := fun left => (mem_erase.mp left).2 rfl
  apply (List.perm_ext_iff_of_nodup nodup (List.nodup_cons.mpr ⟨gone, nodup.filter _⟩)).mpr
  intro b
  rw [List.mem_cons, mem_erase]
  constructor
  · intro hb
    by_cases same : b.descriptor = c.descriptor
    · exact .inl (o.eq_of_descriptor hb member same)
    · exact .inr ⟨hb, same⟩
  · rintro (rfl | ⟨hb, -⟩)
    · exact member
    · exact hb

theorem Orderly.perm_update (o : Orderly l) {b c : Client τ} (member : c ∈ l.clients)
    (same : b.descriptor = c.descriptor) :
    (l.update b).clients.Perm (b :: (l.erase c.descriptor).clients) := by
  have others : (l.erase c.descriptor).clients.map
      (fun a => if a.descriptor = b.descriptor then b else a) =
        (l.erase c.descriptor).clients := by
    refine (List.map_congr_left ?_).trans (List.map_id _)
    intro a ha
    exact if_neg (same ▸ (mem_erase.mp ha).2)
  have moved := (o.perm_erase member).map fun a => if a.descriptor = b.descriptor then b else a
  rw [List.map_cons, if_pos same.symm, others] at moved
  exact moved

/-- What an update leaves alone in its client it leaves alone in the table. -/
theorem Orderly.map_update {α : Type} (o : Orderly l) {b c : Client τ} (member : c ∈ l.clients)
    (same : b.descriptor = c.descriptor) (f : Client τ → α) (hf : f b = f c) :
    (l.update b).clients.map f = l.clients.map f := by
  simp only [update, List.map_map]
  apply List.map_congr_left
  intro a ha
  rw [Function.comp_apply]
  split
  · next hd => rw [hf, o.eq_of_descriptor ha member (hd.trans same)]
  · rfl

theorem Orderly.standings_returned (o : Orderly l) {c : Client τ} (member : c ∈ l.clients)
    (back : Client τ) :
    (l.update (c.returned back)).clients.map Client.standing =
      (Occurrence.standings l.history).map fun s =>
        if s.serial = c.serial then (c.returned back).standing else s := by
  rw [← o.table]
  simp only [update, List.map_map]
  apply List.map_congr_left
  intro a ha
  by_cases same : a.descriptor = c.descriptor
  · have hs := (o.same_iff ha member).mp same
    simp [same, hs]
  · have hs := mt (o.same_iff ha member).mpr same
    simp [same, hs]

theorem Orderly.standings_served (o : Orderly l) {c : Client τ} {s : Session τ ω}
    (member : c ∈ l.clients) (step : Session.Step h ⟨l.world, c, []⟩ s) :
    (l.update s.client).clients.map Client.standing =
      Occurrence.standings (s.history ++ l.history) := by
  cases step with
  | read r =>
    exact (o.map_update member (c.descriptor_receive r) _ (c.standing_receive r)).trans o.table
  | request => exact o.standings_returned member _
  | flush plan =>
    exact (o.map_update member (c.descriptor_flush plan) _ (c.standing_flush plan)).trans o.table

theorem Orderly.standings_closed (o : Orderly l) {c : Client τ} (member : c ∈ l.clients) :
    (l.erase c.descriptor).clients.map Client.standing =
      (Occurrence.standings l.history).filter fun s => s.serial != c.serial := by
  rw [← o.table, List.filter_map]
  apply congrArg
  apply List.filter_congr
  intro a ha
  rw [Bool.eq_iff_iff]
  simpa using not_congr (o.same_iff ha member)

theorem Orderly.decline (o : Orderly l) (d : Descriptor) : Orderly (l.decline d) := by
  refine ⟨o.table, o.descriptors, o.serials, ?_, ?_⟩
  · intro c hc
    exact Nat.lt_succ_of_lt (o.known c hc)
  · intro p hp
    rcases List.mem_cons.mp hp with rfl | hp
    · exact Nat.lt_succ_self _
    · exact Nat.lt_succ_of_lt (o.noted p hp)

theorem Orderly.enrol (o : Orderly l) {d : Descriptor} (free : l.Free d) (w : ω)
    (back : Client τ) : Orderly (l.enrol (l.newcomer h d) w back) := by
  refine ⟨?_, ?_, ?_, ?_, ?_⟩
  · rw [EventLoop.enrol, List.map_append, o.table]
    rfl
  · rw [EventLoop.enrol, List.map_append]
    apply o.descriptors.append (List.nodup_singleton _)
    simpa [List.disjoint_singleton, newcomer] using o.not_taken free
  · rw [EventLoop.enrol, List.map_append]
    apply o.serials.append (List.nodup_singleton _)
    simpa [List.disjoint_singleton, newcomer] using fun c hc => Nat.ne_of_lt (o.known c hc)
  · intro b hb
    rcases List.mem_append.mp hb with hb | hb
    · exact Nat.lt_succ_of_lt (o.known b hb)
    · rw [List.mem_singleton.mp hb]
      exact Nat.lt_succ_self _
  · intro p hp
    rcases List.mem_cons.mp hp with rfl | hp
    · exact Nat.lt_succ_self _
    · exact Nat.lt_succ_of_lt (o.noted p hp)

theorem Orderly.absorb (o : Orderly l) {c : Client τ} {s : Session τ ω} (member : c ∈ l.clients)
    (step : Session.Step h ⟨l.world, c, []⟩ s) : Orderly (l.absorb s) := by
  obtain ⟨p, hp, hs, -⟩ := step.notes
  refine ⟨o.standings_served member step, ?_, ?_, ?_, ?_⟩
  · exact (o.map_update member step.descriptor _ step.descriptor) ▸ o.descriptors
  · exact (o.map_update member step.descriptor _ step.serial) ▸ o.serials
  · intro b hb
    rcases of_mem_update hb with rfl | ⟨hb, -⟩
    · exact step.serial ▸ o.known c member
    · exact o.known b hb
  · intro q hq
    rw [EventLoop.absorb, hp] at hq
    rcases List.mem_cons.mp hq with rfl | hq
    · exact hs ▸ o.known c member
    · exact o.noted q hq

theorem Orderly.release (o : Orderly l) {c : Client τ} (member : c ∈ l.clients) :
    Orderly (l.release h c) := by
  have sub : List.Sublist (l.erase c.descriptor).clients l.clients := List.filter_sublist
  refine ⟨o.standings_closed member, o.descriptors.sublist (sub.map _),
    o.serials.sublist (sub.map _), fun b hb => o.known b (sub.subset hb), ?_⟩
  intro q hq
  rcases List.mem_cons.mp hq with rfl | hq
  · exact o.known c member
  · exact o.noted q hq

theorem Step.orderly (o : Orderly l) (step : Step h l m) : Orderly m := by
  cases step with
  | declined d alike => exact alike.orderly (o.decline d)
  | opened free asked alike => exact alike.orderly (o.enrol free _ _)
  | served member step alike => exact alike.orderly (o.absorb member step)
  | closed member alike => exact alike.orderly (o.release member)
  | watched alike => exact alike.orderly o

theorem Path.orderly (o : Orderly l) (path : Path h l m) : Orderly m := by
  induction path with
  | refl => exact o
  | tail _ step ih => exact step.orderly ih

theorem Step.noted (step : Step h l m) :
    m.history = l.history ∨ ∃ o, m.history = o :: l.history := by
  cases step with
  | declined d alike => exact .inr ⟨_, alike.history⟩
  | opened free asked alike => exact .inr ⟨_, alike.history⟩
  | served member step alike =>
    obtain ⟨o, hn, -⟩ := step.notes
    refine .inr ⟨o, alike.history.trans ?_⟩
    rw [EventLoop.absorb, hn]
    rfl
  | closed member alike => exact .inr ⟨_, alike.history⟩
  | watched alike => exact .inl alike.history

theorem Path.through {os : List (Occurrence τ ω)} (path : Path h l m) (start : l.history = [])
    (part : os <:+ m.history) : ∃ k, Path h l k ∧ k.history = os := by
  induction path with
  | refl =>
    rw [start] at part
    exact ⟨l, .refl, start.trans (List.suffix_nil.mp part).symm⟩
  | @tail k m path step ih =>
    rcases step.noted with same | ⟨o, noted⟩
    · exact ih (same ▸ part)
    · rw [noted] at part
      rcases List.suffix_cons_iff.mp part with whole | part
      · exact ⟨m, path.tail step, noted.trans whole.symm⟩
      · exact ih part

theorem Step.world (step : Step h l m) {w : ω}
    (start : l.world = Occurrence.lastWorld w l.history) :
    m.world = Occurrence.lastWorld w m.history := by
  cases step with
  | declined d alike => rw [alike.world, alike.history]; exact start
  | opened free asked alike => rw [alike.world, alike.history]; rfl
  | served member step alike =>
    rw [alike.world, alike.history]
    cases step with
    | read r => exact start
    | request => rfl
    | flush plan => exact start
  | closed member alike => rw [alike.world, alike.history]; rfl
  | watched alike => rw [alike.world, alike.history]; exact start

theorem Path.world (path : Path h l m) (start : l.history = []) :
    m.world = Occurrence.lastWorld l.world m.history := by
  induction path with
  | refl => rw [start]; rfl
  | tail _ step ih => exact step.world ih

theorem alike_pause (l : EventLoop τ ω) (paused : Bool) : Alike l (l.pause paused) := by
  rw [pause]
  split <;> exact ⟨rfl, rfl, rfl, rfl, rfl, rfl⟩

theorem alike_resume (l : EventLoop τ ω) (resumed : Bool) : Alike l (l.resume resumed) := by
  rw [resume]
  split <;> exact ⟨rfl, rfl, rfl, rfl, rfl, rfl⟩

theorem alike_updateInterest (l : EventLoop τ ω) (d : Descriptor) (wanted modified : Bool) :
    Alike l (l.updateInterest d wanted modified) := by
  rw [updateInterest]
  split <;> exact ⟨rfl, rfl, rfl, rfl, rfl, rfl⟩

theorem tearDown_eq {d : Descriptor} {c : Client τ} (found : l.client? d = some c)
    (resumed : Bool) :
    l.tearDown h d resumed =
      EventLoop.resume { l.release h c with
        writeArmed := l.writeArmed.filter (· != d)
        poller := l.poller.remove d } resumed := by
  obtain ⟨-, rfl⟩ := client?_eq_some found
  rw [tearDown]
  rw [found]
  rfl

theorem alike_tearDown {d : Descriptor} {c : Client τ} (found : l.client? d = some c)
    (resumed : Bool) : Alike (l.release h c) (l.tearDown h d resumed) := by
  rw [tearDown_eq found]
  obtain ⟨clients, world, next, history, sizes⟩ := alike_resume _ resumed
  exact ⟨clients, world, next, history, sizes⟩

theorem Orderly.register_eq (o : Orderly l) {d : Descriptor} (free : l.Free d)
    (setUp watched : Bool) :
    l.register h d setUp watched =
      if setUp && watched then
        match h.opened l.world (l.newcomer h d) with
        | none =>
          (EventLoop.note { l with nextSerial := l.nextSerial + 1 }
            (.abandoned (l.newcomer h d))).crash
        | some (w, back) =>
          { l.enrol (l.newcomer h d) w back with poller := l.poller.add d (.client false) }
      else l.decline d := by
  have others : (l.erase d).clients = l.clients :=
    List.filter_eq_self.mpr fun c hc => by simpa using o.not_taken free c hc
  rw [register]
  dsimp only
  split
  · cases h.opened l.world (l.newcomer h d) with
    | none => rfl
    | some r =>
      exact congrArg (fun clients => { l.enrol (l.newcomer h d) r.1 r.2 with
        clients := clients ++ [(l.newcomer h d).returned r.2]
        poller := l.poller.add d (.client false) }) others
  · rfl

theorem Orderly.outcome_register (o : Orderly l) {d : Descriptor} {setUp watched : Bool}
    (free : l.Free d) (alive : (l.register h d setUp watched).crashed = false) :
    Outcome h l (l.register h d setUp watched) := by
  rw [o.register_eq free] at alive ⊢
  split at alive
  · next hw =>
    rw [if_pos hw]
    cases asked : h.opened l.world (l.newcomer h d) with
    | none =>
      rw [asked] at alive
      exact absurd alive (by simp [crash])
    | some r => exact .opened free asked ⟨rfl, rfl, rfl, rfl, rfl, rfl⟩
  · next hw =>
    rw [if_neg hw]
    exact .declined d (.refl _)

theorem Orderly.path_absorb (o : Orderly l) {c : Client τ} {s : Session τ ω}
    (member : c ∈ l.clients) (path : Session.Path h ⟨l.world, c, []⟩ s) :
    Path h l (l.absorb s) := by
  induction path with
  | refl => rw [o.absorb_self member]
  | @tail s t path step ih =>
    obtain ⟨p, notes, -, fresh⟩ := step.notes
    have here : s.client ∈ (l.absorb s).clients :=
      mem_update member (Session.Path.descriptor path).symm
    -- the table holds the client as the steps before left it, and takes only the last step in
    refine ih.tail (.served here fresh ?_)
    rw [l.absorb_absorb step.descriptor notes]
    exact .refl _

theorem serveClient_of_none {e : Event} (found : l.client? e.descriptor = none) :
    l.serveClient h e = l := by
  rw [serveClient]
  rw [found]

theorem serveClient_eq {e : Event} {c : Client τ} {v : Verdict} {s : Session τ ω}
    (found : l.client? e.descriptor = some c)
    (served : Session.serve h ⟨l.world, c, []⟩ e.flags e.read e.writes = (v, s)) :
    l.serveClient h e = (l.absorb s).settle h e s.client.hasQueued v := by
  rw [serveClient]
  rw [found]
  dsimp only
  rw [served]
  cases v <;> rfl

theorem Orderly.outcome_serveClient (o : Orderly l) (e : Event)
    (alive : (l.serveClient h e).crashed = false) : Outcome h l (l.serveClient h e) := by
  cases found : l.client? e.descriptor with
  | none =>
    rw [serveClient_of_none found]
    exact .watched (.refl l)
  | some c =>
    obtain ⟨member, hd⟩ := client?_eq_some found
    rcases served : Session.serve h ⟨l.world, c, []⟩ e.flags e.read e.writes with ⟨v, s⟩
    rw [serveClient_eq found served] at alive ⊢
    cases v with
    | keep => exact .kept member served (alike_updateInterest (l.absorb s) ..)
    | tearDown =>
      have path := Session.path_of_serve served (by simp)
      have same : s.client.descriptor = c.descriptor := Session.Path.descriptor path
      have here : s.client ∈ (l.absorb s).clients := mem_update member same.symm
      have found := ((o.path_absorb member path).orderly o).client?_eq here
      rw [same, hd] at found
      exact .torn member served (alike_tearDown found _)
    | crash => exact absurd alive (by simp [settle, crash])

@[simp] theorem crashed_pause (l : EventLoop τ ω) (paused : Bool) :
    (l.pause paused).crashed = l.crashed := by
  rw [pause]
  split <;> rfl

@[simp] theorem crashed_resume (l : EventLoop τ ω) (resumed : Bool) :
    (l.resume resumed).crashed = l.crashed := by
  rw [resume]
  split <;> rfl

@[simp] theorem crashed_tearDown (h : Handler τ ω) (l : EventLoop τ ω) (d : Descriptor)
    (resumed : Bool) : (l.tearDown h d resumed).crashed = l.crashed := by
  rw [tearDown]
  split
  · rfl
  · exact crashed_resume _ resumed

theorem Move.alive (move : Move h l m) (alive : m.crashed = false) : l.crashed = false := by
  cases move with
  | register _ _ before => exact before
  | pause paused => exact (l.crashed_pause paused).symm.trans alive
  | resume resumed => exact (l.crashed_resume resumed).symm.trans alive
  | serve _ before => exact before
  | tearDown d resumed => exact (crashed_tearDown h l d resumed).symm.trans alive

theorem Move.outcome (o : Orderly l) (move : Move h l m) (alive : m.crashed = false) :
    Outcome h l m := by
  cases move with
  | register _ _ _ free => exact o.outcome_register free alive
  | pause paused => exact .watched (l.alike_pause paused)
  | resume resumed => exact .watched (l.alike_resume resumed)
  | serve e => exact o.outcome_serveClient e alive
  | tearDown d resumed =>
    cases found : l.client? d with
    | none =>
      rw [EventLoop.tearDown]
      rw [found]
      exact .watched (.refl l)
    | some c => exact .closed (client?_eq_some found).1 (alike_tearDown found resumed)

theorem Outcome.path (o : Orderly l) (outcome : Outcome h l m) : Path h l m := by
  cases outcome with
  | declined d alike => exact .single (.declined d alike)
  | opened free asked alike => exact .single (.opened free asked alike)
  | @kept c s flags r plan member served alike =>
    have path := Session.path_of_serve served (by simp)
    exact (o.path_absorb member path).tail (.watched alike)
  | @torn c s flags r plan member served alike =>
    have path := Session.path_of_serve served (by simp)
    have here : s.client ∈ (l.absorb s).clients :=
      mem_update member (Session.Path.descriptor path).symm
    exact (o.path_absorb member path).tail (.closed here alike)
  | closed member alike => exact .single (.closed member alike)
  | watched alike => exact .single (.watched alike)

/-- Moves go by steps as long as no callback panics. -/
theorem Moves.path (o : Orderly l) (moves : Moves h l m) (alive : m.crashed = false) :
    Path h l m := by
  induction moves with
  | refl => exact .refl
  | tail _ move ih =>
    -- a panic is never undone, so the loop was going before the last move as well
    have before := ih (move.alive alive)
    have ordered := before.orderly o
    exact before.trans ((move.outcome ordered alive).path ordered)

theorem Moves.orderly (o : Orderly l) (moves : Moves h l m) (alive : m.crashed = false) :
    Orderly m :=
  (moves.path o alive).orderly o

structure Begins (l : EventLoop τ ω) : Prop where
  clients : l.clients = []
  history : l.history = []
  alive : l.crashed = false

theorem begins_create (listener waker : Descriptor) (inputCapacity outputCapacity : Nat)
    (world : ω) :
    Begins (create listener waker inputCapacity outputCapacity world : EventLoop τ ω) :=
  ⟨rfl, rfl, rfl⟩

theorem Begins.orderly (begins : l.Begins) : Orderly l := by
  obtain ⟨clients, history, -⟩ := begins
  exact ⟨by rw [clients, history]; rfl, by simp [clients], by simp [clients], by simp [clients],
    by simp [history]⟩

theorem newcomer_eq (h : Handler τ ω) (l : EventLoop τ ω) (d : Descriptor) :
    l.newcomer h d = h.guest l.inputCapacity l.outputCapacity l.nextSerial d :=
  rfl

theorem Outcome.sizes (outcome : Outcome h l m) :
    m.inputCapacity = l.inputCapacity ∧ m.outputCapacity = l.outputCapacity := by
  cases outcome with
  | declined d alike => exact alike.sizes
  | opened free asked alike => exact alike.sizes
  | kept member served alike => exact alike.sizes
  | torn member served alike => exact alike.sizes
  | closed member alike => exact alike.sizes
  | watched alike => exact alike.sizes

theorem Move.calm (calm : h.Calm l.inputCapacity l.outputCapacity) (move : Move h l m)
    (alive : l.crashed = false) : m.crashed = false := by
  cases move with
  | @register d setUp watched =>
    rw [EventLoop.register]
    dsimp only
    split
    · cases asked : h.opened l.world (l.newcomer h d) with
      | none => exact absurd asked (calm.opened _ _ _)
      | some r => exact alive
    · exact alive
  | pause paused => exact (l.crashed_pause paused).trans alive
  | resume resumed => exact (l.crashed_resume resumed).trans alive
  | serve e =>
    cases found : l.client? e.descriptor with
    | none => rwa [serveClient_of_none found]
    | some c =>
      have kept := Session.serve_calm h ⟨l.world, c, []⟩ e.flags e.read e.writes calm.request
      rcases served : Session.serve h ⟨l.world, c, []⟩ e.flags e.read e.writes with ⟨v, s⟩
      rw [served] at kept
      rw [serveClient_eq found served]
      cases v with
      | keep =>
        rw [settle, updateInterest]
        split <;> exact alive
      | tearDown => exact (crashed_tearDown h _ _ _).trans alive
      | crash => exact absurd rfl kept
  | tearDown d resumed => exact (crashed_tearDown h l d resumed).trans alive

/-- A loop goes on as long as its handler does not panic. -/
theorem Moves.calm (o : Orderly l) (calm : h.Calm l.inputCapacity l.outputCapacity)
    (moves : Moves h l m) (alive : l.crashed = false) :
    m.crashed = false ∧ m.inputCapacity = l.inputCapacity ∧
      m.outputCapacity = l.outputCapacity := by
  induction moves with
  | refl => exact ⟨alive, rfl, rfl⟩
  | @tail m k moves move ih =>
    obtain ⟨alive, input, output⟩ := ih
    have going := move.calm (by rwa [input, output]) alive
    obtain ⟨input', output'⟩ := (move.outcome (Moves.orderly o moves alive) going).sizes
    exact ⟨going, input'.trans input, output'.trans output⟩

end EventLoop

end RenderBroker
