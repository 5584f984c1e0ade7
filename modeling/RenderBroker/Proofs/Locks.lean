import RenderBroker.Proofs.Surfaces
import RenderBroker.Render.Locking

namespace RenderBroker

namespace CallStage

def render? : CallStage → Option DrawableId
  | .reach w | .check w | .provide w | .withdraw w _ | .redraw w | .leave w _ => some w.content
  | _ => none

def slot? : CallStage → Option DrawableId
  | .check w | .provide w | .withdraw w _ => some w.content
  | .replace d _ | .look d | .release d _ => some d
  | _ => none

def window? : CallStage → Option Window
  | .enter w | .reach w | .check w | .provide w | .withdraw w _ | .approach w | .redraw w
  | .leave w _ => some w
  | _ => none

def wants? : CallStage → Option Window
  | .provide w => some w
  | _ => none

/-- A call that gives a buffer has settled on it before. -/
def Justified (n : Nat) (events : List DrawableEvent) : CallStage → Prop
  | .withdraw w u | .leave w (.surface u) =>
    ∀ b, u.buffer = some b → .settled n w.content b ∈ events
  | .ended (.surface u) => ∀ b, u.buffer = some b → ∃ d, .settled n d b ∈ events
  | .release _ (.surface _) => False
  | _ => True

theorem Justified.mono {n : Nat} {es fs : List DrawableEvent} {st : CallStage}
    (justified : st.Justified n es) (more : es ⊆ fs) : st.Justified n fs := by
  unfold Justified at justified ⊢
  split at justified
  · exact fun b given => more (justified b given)
  · exact fun b given => more (justified b given)
  · intro b given
    obtain ⟨d, settled⟩ := justified b given
    exact ⟨d, more settled⟩
  · exact justified
  · trivial

end CallStage

def Lock.unmarked (l : Lock) : Lock :=
  { l with poisoned := false }

namespace Locks

def unmarked (ls : Locks) : Locks :=
  fun d => (ls d).unmarked

/-- The holders of the locks are the calls whose stages say so. -/
def Held (ls : Locks) (held? : CallStage → Option DrawableId) (calls : List CallStage) : Prop :=
  ∀ d n, (ls d).holder = some n ↔ calls[n]?.bind held? = some d

/-- What a turn of a call does to the locks, by the lock that the call held before and holds now. -/
inductive Change (ls : Locks) (n : Nat) : Option DrawableId → Option DrawableId → Locks → Prop
  | keep {held : Option DrawableId} : Change ls n held held ls
  | take {d : DrawableId} (free : (ls d).holder = none) :
      Change ls n none (some d) (ls.set d { ls d with holder := some n })
  | free {d : DrawableId} : Change ls n (some d) none (ls.free d)
  | abandon {held : Option DrawableId} : Change ls n held none (ls.abandon n)

variable {ls ls' : Locks} {held? : CallStage → Option DrawableId} {calls : List CallStage}
  {n : Nat} {st next : CallStage} {d : DrawableId}

theorem holder_set (ls : Locks) (d e : DrawableId) (l : Lock) :
    (ls.set d l e).holder = if e = d then l.holder else (ls e).holder := by
  rw [set]
  split <;> rfl

theorem holder_free (ls : Locks) (d e : DrawableId) :
    (ls.free d e).holder = if e = d then none else (ls e).holder :=
  holder_set ls d e (ls d).free

theorem holder_abandon (ls : Locks) (n : Nat) (e : DrawableId) :
    (ls.abandon n e).holder = if (ls e).holder = some n then none else (ls e).holder := by
  rw [abandon, Lock.abandon]
  split <;> rfl

theorem take_eq_some (taken : ls.take d n = some ls') :
    (ls d).holder = none ∧ ls' = ls.set d { ls d with holder := some n } := by
  rw [take, Lock.take] at taken
  split at taken
  · next free =>
    cases taken
    exact ⟨by simpa using free, rfl⟩
  · cases taken

theorem unmarked_set (ls : Locks) (d : DrawableId) {k l : Lock} (same : k.unmarked = l.unmarked) :
    (ls.unmarked.set d k).unmarked = (ls.set d l).unmarked := by
  funext e
  by_cases here : e = d
  · simp [unmarked, set, here, same]
  · simp [unmarked, set, here, Lock.unmarked]

theorem unmarked_free (ls : Locks) (d : DrawableId) :
    (ls.unmarked.free d).unmarked = (ls.free d).unmarked :=
  ls.unmarked_set d rfl

theorem unmarked_abandon (ls : Locks) (n : Nat) :
    (ls.unmarked.abandon n).unmarked = (ls.abandon n).unmarked := by
  funext d
  change ((ls d).unmarked.abandon n).unmarked = ((ls d).abandon n).unmarked
  rw [Lock.abandon, Lock.abandon]
  change Lock.unmarked (if (ls d).holder = some n then _ else _) = _
  split <;> rfl

theorem take_unmarked {α : Type} {f g : Locks → α}
    (same : ∀ {ls ls' : Locks}, ls.unmarked = ls'.unmarked → f ls = g ls') :
    (ls.unmarked.take d n).map f = (ls.take d n).map g := by
  have holder : (ls.unmarked d).holder = (ls d).holder := rfl
  rw [take, take, Lock.take, Lock.take, holder]
  split
  · exact congrArg some (same (ls.unmarked_set d rfl))
  · rfl

theorem Change.holder {before after : Option DrawableId} (change : ls.Change n before after ls')
    (mine : ∀ d, (ls d).holder = some n ↔ before = some d) :
    (∀ d, (ls' d).holder = some n ↔ after = some d) ∧
      ∀ d m, m ≠ n → ((ls' d).holder = some m ↔ (ls d).holder = some m) := by
  cases change with
  | keep => exact ⟨mine, fun d m _ => Iff.rfl⟩
  | @take e free =>
    simp only [holder_set]
    constructor
    · intro d
      by_cases same : d = e
      · simp [same]
      · simp [same, mine, Ne.symm same]
    · intro d m other
      by_cases same : d = e
      · simp [same, free, Ne.symm other]
      · simp [same]
  | @free e =>
    simp only [holder_free]
    constructor
    · intro d
      by_cases same : d = e
      · simp [same]
      · simp [same, mine, Ne.symm same]
    · intro d m other
      by_cases same : d = e
      · simp [same, (mine e).mpr rfl, Ne.symm other]
      · simp [same]
  | abandon =>
    simp only [holder_abandon]
    constructor
    · intro d
      simp
    · intro d m other
      split
      · next own => simp [own, Ne.symm other]
      · exact Iff.rfl

theorem Held.turn (held : ls.Held held? calls) (here : calls[n]? = some st)
    (change : ls.Change n (held? st) (held? next) ls') : ls'.Held held? (calls.set n next) := by
  have mine (d : DrawableId) : (ls d).holder = some n ↔ held? st = some d := by
    rw [held d n, here, Option.bind_some]
  obtain ⟨own, others⟩ := change.holder mine
  obtain ⟨there, -⟩ := List.getElem?_eq_some_iff.mp here
  intro d m
  by_cases same : m = n
  · rw [same, own, List.getElem?_set_self there, Option.bind_some]
  · rw [others d m same, List.getElem?_set_ne (Ne.symm same)]
    exact held d m

theorem Held.unique {m : Nat} (held : ls.Held held? calls) (there : calls[m]? = some st)
    (here : calls[n]? = some next) (one : held? st = some d) (two : held? next = some d) :
    m = n := by
  have first := (held d m).mpr (by rw [there]; exact one)
  have second := (held d n).mpr (by rw [here]; exact two)
  exact Option.some.inj (first.symm.trans second)

theorem Held.begin (held : ls.Held held? calls) (nothing : held? st = none) :
    ls.Held held? (calls ++ [st]) := by
  intro d m
  rw [held d m, List.getElem?_append]
  split
  · exact Iff.rfl
  · next beyond =>
    rw [List.getElem?_eq_none (Nat.not_lt.mp beyond), Option.bind_none]
    cases single : [st][m - calls.length]? with
    | none => exact Iff.rfl
    | some other =>
      have same : other = st := List.mem_singleton.mp (List.mem_of_getElem? single)
      rw [Option.bind_some, same, nothing]

end Locks

def BackendCall.buffer? : BackendCall → Option HardwareBuffer
  | .allocate _ _ b => b
  | _ => none

namespace DrawableEvent

def provided? : DrawableEvent → Option HardwareBuffer
  | .provided _ _ b => some b
  | _ => none

def slot? : DrawableEvent → Option DrawableId
  | .provided _ d _ | .settled _ d _ | .replaced _ d => some d
  | .redrawn _ _ => none

def provides (d : DrawableId) : DrawableEvent → Bool
  | .provided _ e _ => e == d
  | _ => false

theorem slot?_of_provides {d : DrawableId} {e : DrawableEvent} (provides : e.provides d = true) :
    e.slot? = some d := by
  cases e with
  | provided n c b => exact congrArg some (beq_iff_eq.mp provides)
  | settled | replaced | redrawn => cases provides

end DrawableEvent

namespace Bridge

def given (b : Bridge) : List HardwareBuffer :=
  b.backend.calls.filterMap BackendCall.buffer?

/-- How often a drawable was redrawn. -/
def updates? (b : Bridge) (d : DrawableId) : Option UInt64 :=
  (b.scene.drawable? d).map Drawable.updates

variable {b : Bridge}

theorem given_allocate {width height : UInt16} {i : Option GpuImage} {backend : Backend}
    (given : b.backend.allocate width height = (i, backend)) :
    { b with backend }.given = (i.map GpuImage.buffer).toList ++ b.given := by
  obtain ⟨buffer, rfl, calls⟩ := Backend.allocate_eq given
  rw [Bridge.given, calls]
  cases buffer <;> rfl

theorem given_install (b : Bridge) (w : Window) (i : GpuImage) : (b.install w i).given = b.given :=
  congrArg (fun backend => backend.calls.filterMap BackendCall.buffer?) (b.backend_install w i)

theorem slots_redraw (b : Bridge) (d : DrawableId) : (b.redraw d).slots = b.slots :=
  (textures_modify b.scene.drawables d (f := Drawable.update) (g := fun t => t) fun _ => rfl).trans
    (List.modify_id _ _)

theorem scene_install (b : Bridge) (w : Window) (i : GpuImage) :
    (b.install w i).scene = (b.scene.setTexture w.content (.image i)).2 := by
  rw [install]
  dsimp only
  split
  · rw [discard]
    dsimp only
    split <;> rfl
  · rfl

theorem updates_setTexture (s : Scene) (d e : DrawableId) (t : Texture) :
    ((s.setTexture d t).2.drawable? e).map Drawable.updates =
      (s.drawable? e).map Drawable.updates := by
  change ((s.drawables.modify d _)[e]?).map Drawable.updates = _
  rw [List.getElem?_modify]
  change _ = (s.drawables[e]?).map Drawable.updates
  cases s.drawables[e]? with
  | none => rfl
  | some drawable =>
    by_cases same : d = e
    · simp [same]
    · simp [same]

theorem updates?_redraw (b : Bridge) {d e : DrawableId} (other : d ≠ e) :
    (b.redraw d).updates? e = b.updates? e := by
  change ((b.scene.drawables.modify d _)[e]?).map Drawable.updates = _
  rw [List.getElem?_modify_ne _ _ other]
  rfl

end Bridge

namespace SharedBridge

/-- What a turn of a call does to the bridge, and what it notes down. -/
inductive Deed (s : SharedBridge) (n : Nat) : CallStage → CallStage → SharedBridge → Prop
  | quiet {st next : CallStage} {t : SharedBridge} (scene : t.bridge.scene = s.bridge.scene)
      (given : t.bridge.given = s.bridge.given) (events : t.events = s.events)
      (lacks : ∀ w, next.wants? = some w → s.bridge.buffer? w.content = none)
      (justified : ∀ es, st.Justified n es → next.Justified n es) : Deed s n st next t
  | settled {w : Window} {b : HardwareBuffer} {t : SharedBridge}
      (held : s.bridge.buffer? w.content = some b) (bridge : t.bridge = s.bridge)
      (events : t.events = .settled n w.content b :: s.events) :
      Deed s n (.check w) (.withdraw w ⟨w.width, w.height, some b⟩) t
  | installed {w : Window} {i : GpuImage} {backend : Backend} {t : SharedBridge}
      (allocated : s.bridge.backend.allocate w.width w.height = (some i, backend))
      (bridge : t.bridge = { s.bridge with backend }.install w i)
      (events : t.events =
        .settled n w.content i.buffer :: .provided n w.content i.buffer :: s.events) :
      Deed s n (.provide w) (.withdraw w ⟨w.width, w.height, some i.buffer⟩) t
  | replaced {d : DrawableId} {x : Texture} {t : SharedBridge}
      (bridge : t.bridge = (s.bridge.setTexture d x).2)
      (events : t.events = .replaced n d :: s.events) :
      Deed s n (.replace d x) (.release d (.replaced (s.bridge.setTexture d x).1)) t
  | redrawn {w : Window} {t : SharedBridge} (bridge : t.bridge = s.bridge.redraw w.content)
      (events : t.events = .redrawn n w.content :: s.events) :
      Deed s n (.redraw w) (.leave w .redrawn) t

/-- A turn of a call that comes from one stage to another. -/
structure Turned (s : SharedBridge) (n : Nat) (st next : CallStage) (t : SharedBridge) : Prop where
  calls : t.calls = s.calls.set n next
  render : s.render.Change n st.render? next.render? t.render
  slot : s.slot.Change n st.slot? next.slot? t.slot
  seen : next.window? = none ∨ next.window? = st.window? ∨
    ∃ w ∈ s.bridge.scene.windows, next.window? = some w
  deed : Deed s n st next t

variable {s t : SharedBridge} {n : Nat} {st next : CallStage} {w : Window}

theorem Deed.idle (scene : t.bridge.scene = s.bridge.scene)
    (given : t.bridge.given = s.bridge.given) (events : t.events = s.events)
    (past : next.wants? = none) (justified : ∀ es, st.Justified n es → next.Justified n es) :
    Deed s n st next t := by
  apply Deed.quiet
  · exact scene
  · exact given
  · exact events
  · intro w wants
    cases past.symm.trans wants
  · exact justified

theorem Turned.of_render {d : DrawableId}
    (gone : (s.render.take d n).map (fun render => { s with render }.put n next) = some t)
    (before : st.render? = none) (after : next.render? = some d) (slot : next.slot? = st.slot?)
    (window : next.window? = st.window?) (past : next.wants? = none)
    (justified : ∀ es, next.Justified n es) : Turned s n st next t := by
  obtain ⟨render, taken, rfl⟩ := Option.map_eq_some_iff.mp gone
  obtain ⟨free, rfl⟩ := Locks.take_eq_some taken
  refine ⟨rfl, ?_, ?_, .inr (.inl window), .idle rfl rfl rfl past fun es _ => justified es⟩
  · rw [before, after]
    exact .take free
  · rw [slot]
    exact .keep

theorem Turned.of_slot {d : DrawableId}
    (gone : (s.slot.take d n).map (fun slot => { s with slot }.put n next) = some t)
    (before : st.slot? = none) (after : next.slot? = some d) (render : next.render? = st.render?)
    (window : next.window? = st.window?) (past : next.wants? = none)
    (justified : ∀ es, next.Justified n es) : Turned s n st next t := by
  obtain ⟨slot, taken, rfl⟩ := Option.map_eq_some_iff.mp gone
  obtain ⟨free, rfl⟩ := Locks.take_eq_some taken
  refine ⟨rfl, ?_, ?_, .inr (.inl window), .idle rfl rfl rfl past fun es _ => justified es⟩
  · rw [render]
    exact .keep
  · rw [before, after]
    exact .take free

theorem turned_resolve {id : UInt32} (gone : s.advance n (.resolve id) = some t) :
    ∃ next, Turned s n (.resolve id) next t := by
  rw [advance] at gone
  cases found : s.bridge.scene.window? id with
  | none =>
    rw [found] at gone
    cases gone
    refine ⟨_, rfl, .keep, .keep, .inl rfl, .idle rfl rfl rfl rfl ?_⟩
    intro es _ b given
    cases given
  | some w =>
    rw [found] at gone
    cases gone
    refine ⟨_, rfl, .keep, .keep, ?_, .idle rfl rfl rfl rfl fun _ _ => trivial⟩
    exact .inr (.inr ⟨w, List.mem_of_find?_eq_some found, rfl⟩)

theorem turned_refresh {id : UInt32} (gone : s.advance n (.refresh id) = some t) :
    ∃ next, Turned s n (.refresh id) next t := by
  rw [advance] at gone
  cases found : s.bridge.scene.window? id with
  | none =>
    rw [found] at gone
    cases gone
    exact ⟨_, rfl, .keep, .keep, .inl rfl, .idle rfl rfl rfl rfl fun _ _ => trivial⟩
  | some w =>
    rw [found] at gone
    cases gone
    refine ⟨_, rfl, .keep, .keep, ?_, .idle rfl rfl rfl rfl fun _ _ => trivial⟩
    exact .inr (.inr ⟨w, List.mem_of_find?_eq_some found, rfl⟩)

theorem turned_check (gone : s.advance n (.check w) = some t) :
    ∃ next, Turned s n (.check w) next t := by
  rw [advance] at gone
  cases held : s.bridge.buffer? w.content with
  | none =>
    rw [held] at gone
    cases gone
    refine ⟨_, rfl, .keep, .keep, .inr (.inl rfl), ?_⟩
    refine .quiet rfl rfl rfl ?_ fun _ _ => trivial
    intro v wants
    cases wants
    exact held
  | some b =>
    rw [held] at gone
    cases gone
    exact ⟨_, rfl, .keep, .keep, .inr (.inl rfl), .settled held rfl rfl⟩

theorem turned_provide (s : SharedBridge) (n : Nat) (w : Window) :
    ∃ next, Turned s n (.provide w) next (s.provide n w) := by
  rw [SharedBridge.provide, Bridge.provide]
  rcases allocated : s.bridge.backend.allocate w.width w.height with ⟨_ | i, backend⟩
  · refine ⟨_, rfl, .keep, .keep, .inr (.inl rfl),
      .idle rfl (Bridge.given_allocate allocated) rfl rfl ?_⟩
    intro es _ b given
    cases given
  · exact ⟨_, rfl, .keep, .keep, .inr (.inl rfl), .installed allocated rfl rfl⟩

theorem turned_leave {r : CallResult} (gone : s.advance n (.leave w r) = some t) :
    Turned s n (.leave w r) (.ended r) t := by
  cases gone
  refine ⟨rfl, .free, .keep, .inl rfl, .idle rfl rfl rfl rfl ?_⟩
  intro es justified
  cases r with
  | surface u => exact fun b given => ⟨w.content, justified b given⟩
  | redrawn | replaced | buffer | panicked => trivial

theorem turned_release {d : DrawableId} {r : CallResult}
    (gone : s.advance n (.release d r) = some t) :
    Turned s n (.release d r) (.ended r) t := by
  cases gone
  refine ⟨rfl, .keep, .free, .inl rfl, .idle rfl rfl rfl rfl ?_⟩
  intro es justified
  cases r with
  | surface u => exact justified.elim
  | redrawn | replaced | buffer | panicked => trivial

theorem turned (gone : s.advance n st = some t) : ∃ next, Turned s n st next t := by
  cases st with
  | resolve id => exact turned_resolve gone
  | enter w => exact ⟨.reach w, .of_render gone rfl rfl rfl rfl rfl fun _ => trivial⟩
  | reach w => exact ⟨.check w, .of_slot gone rfl rfl rfl rfl rfl fun _ => trivial⟩
  | check w => exact turned_check gone
  | provide w =>
    cases gone
    exact s.turned_provide n w
  | withdraw w u =>
    cases gone
    exact ⟨_, rfl, .keep, .free, .inr (.inl rfl), .idle rfl rfl rfl rfl fun _ h => h⟩
  | refresh id => exact turned_refresh gone
  | approach w => exact ⟨.redraw w, .of_render gone rfl rfl rfl rfl rfl fun _ => trivial⟩
  | redraw w =>
    cases gone
    exact ⟨_, rfl, .keep, .keep, .inr (.inl rfl), .redrawn rfl rfl⟩
  | leave w r => exact ⟨.ended r, turned_leave gone⟩
  | setTexture d x => exact ⟨.replace d x, .of_slot gone rfl rfl rfl rfl rfl fun _ => trivial⟩
  | replace d x =>
    cases gone
    exact ⟨_, rfl, .keep, .keep, .inl rfl, .replaced rfl rfl⟩
  | buffer d => exact ⟨.look d, .of_slot gone rfl rfl rfl rfl rfl fun _ => trivial⟩
  | look d =>
    cases gone
    exact ⟨_, rfl, .keep, .keep, .inl rfl, .idle rfl rfl rfl rfl fun _ _ => trivial⟩
  | release d r => exact ⟨.ended r, turned_release gone⟩
  | ended r => cases gone

inductive Stepped (s : SharedBridge) : Turn → SharedBridge → Prop
  | begun {first : CallStage} (begins : isFirst first = true) :
      Stepped s (.begin first) { s with calls := s.calls ++ [first] }
  | turned {turn : Turn} {n : Nat} {st next : CallStage} {t : SharedBridge}
      (whose : turn = .go n ∨ next = .ended .panicked) (here : s.calls[n]? = some st)
      (turned : Turned s n st next t) : Stepped s turn t

theorem stepped {turn : Turn} (taken : s.step turn = some t) : Stepped s turn t := by
  cases turn with
  | begin first =>
    rw [step] at taken
    split at taken
    · next begins =>
      cases taken
      exact .begun begins
    · cases taken
  | go n =>
    obtain ⟨st, here, gone⟩ := Option.bind_eq_some_iff.mp taken
    obtain ⟨next, turned⟩ := turned gone
    exact .turned (.inl rfl) here turned
  | panic n =>
    rw [step] at taken
    split at taken
    · cases taken
    · cases taken
    · next st _ here =>
      cases taken
      exact .turned (.inr rfl) here
        ⟨rfl, .abandon, .abandon, .inl rfl, .idle rfl rfl rfl rfl fun _ _ => trivial⟩

/-- What the slot of a drawable holds after what was done to it, the latest first. -/
inductive SlotHistory (d : DrawableId) : Option HardwareBuffer → List DrawableEvent → Prop
  | start (b : Option HardwareBuffer) : SlotHistory d b []
  | provided {n : Nat} {b : HardwareBuffer} {es : List DrawableEvent}
      (lacks : SlotHistory d none es) : SlotHistory d (some b) (.provided n d b :: es)
  | settled {n : Nat} {b : HardwareBuffer} {es : List DrawableEvent}
      (holds : SlotHistory d (some b) es) : SlotHistory d (some b) (.settled n d b :: es)
  | replaced {n : Nat} {b c : Option HardwareBuffer} {es : List DrawableEvent}
      (before : SlotHistory d b es) : SlotHistory d c (.replaced n d :: es)
  | other {e : DrawableEvent} {b : Option HardwareBuffer} {es : List DrawableEvent}
      (elsewhere : e.slot? ≠ some d) (before : SlotHistory d b es) : SlotHistory d b (e :: es)

/-- What holds of a shared bridge in every state, if it starts with the bridge `origin`. -/
structure Sound (origin : Bridge) (s : SharedBridge) : Prop where
  render : s.render.Held CallStage.render? s.calls
  slot : s.slot.Held CallStage.slot? s.calls
  anchored : s.bridge.whereabouts.Anchored
  inside : ∀ {n : Nat} {st : CallStage} {w : Window}, s.calls[n]? = some st →
    st.window? = some w → w.content < s.bridge.slots.length
  lacking : ∀ {n : Nat} {w : Window}, s.calls[n]? = some (.provide w) →
    s.bridge.buffer? w.content = none
  justified : ∀ {n : Nat} {st : CallStage}, s.calls[n]? = some st → st.Justified n s.events
  given : s.bridge.given = s.events.filterMap DrawableEvent.provided? ++ origin.given
  history : ∀ d, SlotHistory d (s.bridge.buffer? d) s.events

variable {origin : Bridge} {m : Nat} {d : DrawableId} {old : CallStage}

theorem Turned.stage (turned : Turned s n st next t) (there : t.calls[m]? = some old) :
    (m = n ∧ old = next) ∨ (m ≠ n ∧ s.calls[m]? = some old) := by
  rw [turned.calls] at there
  by_cases same : m = n
  · left
    rw [same, List.getElem?_set_self'] at there
    obtain ⟨_, _, rfl⟩ := Option.map_eq_some_iff.mp there
    exact ⟨same, rfl⟩
  · right
    rw [List.getElem?_set_ne (Ne.symm same)] at there
    exact ⟨same, there⟩

theorem Deed.windows (deed : Deed s n st next t) :
    t.bridge.scene.windows = s.bridge.scene.windows := by
  cases deed with
  | quiet scene => rw [scene]
  | settled _ bridge => rw [bridge]
  | installed _ bridge =>
    rw [bridge, Bridge.scene_install]
    rfl
  | replaced bridge =>
    rw [bridge]
    rfl
  | redrawn bridge =>
    rw [bridge]
    rfl

/-- Only a call that holds the lock of a slot changes what is in it. -/
theorem Deed.slots (deed : Deed s n st next t) :
    t.bridge.slots.length = s.bridge.slots.length ∧
      ∀ d, st.slot? ≠ some d → t.bridge.slots[d]? = s.bridge.slots[d]? := by
  cases deed with
  | quiet scene =>
    rw [Bridge.slots, scene]
    exact ⟨rfl, fun _ _ => rfl⟩
  | settled _ bridge =>
    rw [bridge]
    exact ⟨rfl, fun _ _ => rfl⟩
  | @installed w i _ _ _ bridge =>
    rw [bridge, Bridge.slots_install]
    refine ⟨List.length_set, fun d other => ?_⟩
    rw [List.getElem?_set_ne fun same => other (congrArg some same)]
    rfl
  | @replaced e x _ bridge =>
    rw [bridge, Bridge.slots_setTexture]
    refine ⟨List.length_set, fun d other => ?_⟩
    rw [List.getElem?_set_ne fun same => other (congrArg some same)]
  | redrawn bridge =>
    rw [bridge, Bridge.slots_redraw]
    exact ⟨rfl, fun _ _ => rfl⟩

theorem Deed.more (deed : Deed s n st next t) : s.events ⊆ t.events := by
  cases deed with
  | quiet _ _ events => simp [events]
  | settled _ _ events => simp [events]
  | installed _ _ events =>
    rw [events]
    exact fun e he => List.mem_cons_of_mem _ (List.mem_cons_of_mem _ he)
  | replaced _ events => simp [events]
  | redrawn _ events => simp [events]

theorem Deed.justified (deed : Deed s n st next t) (before : st.Justified n s.events) :
    next.Justified n t.events := by
  cases deed with
  | quiet _ _ events _ justified =>
    rw [events]
    exact justified _ before
  | settled _ _ events =>
    intro b given
    cases given
    simp [events]
  | installed _ _ events =>
    intro b given
    cases given
    simp [events]
  | replaced => trivial
  | redrawn => trivial

theorem Deed.given (deed : Deed s n st next t)
    (before : s.bridge.given = s.events.filterMap DrawableEvent.provided? ++ origin.given) :
    t.bridge.given = t.events.filterMap DrawableEvent.provided? ++ origin.given := by
  cases deed with
  | quiet _ given events => rw [given, events, before]
  | settled _ bridge events =>
    rw [bridge, events, before]
    rfl
  | installed allocated bridge events =>
    rw [bridge, events, Bridge.given_install, Bridge.given_allocate allocated, before]
    rfl
  | replaced bridge events =>
    rw [bridge, events]
    exact before
  | redrawn bridge events =>
    rw [bridge, events]
    exact before

theorem idle_of_first {first : CallStage} (begins : isFirst first = true) :
    first.render? = none ∧ first.slot? = none ∧ first.window? = none ∧
      ∀ n es, first.Justified n es := by
  cases first with
  | resolve | refresh | setTexture | buffer => exact ⟨rfl, rfl, rfl, fun _ _ => trivial⟩
  | _ => cases begins

theorem Sound.begin (sound : Sound origin s) {first : CallStage} (begins : isFirst first = true) :
    Sound origin { s with calls := s.calls ++ [first] } := by
  have late {m : Nat} {st : CallStage} (there : (s.calls ++ [first])[m]? = some st) :
      s.calls[m]? = some st ∨ st = first := by
    rw [List.getElem?_append] at there
    split at there
    · exact .inl there
    · exact .inr (List.mem_singleton.mp (List.mem_of_getElem? there))
  obtain ⟨render, slot, window, justified⟩ := idle_of_first begins
  exact {
    render := sound.render.begin render
    slot := sound.slot.begin slot
    anchored := sound.anchored
    inside := by
      intro m st w there shows
      rcases late there with there | rfl
      · exact sound.inside there shows
      · cases window.symm.trans shows
    lacking := by
      intro m w there
      rcases late there with there | rfl
      · exact sound.lacking there
      · cases begins
    justified := by
      intro m st there
      rcases late there with there | rfl
      · exact sound.justified there
      · exact justified m _
    given := sound.given
    history := sound.history }

theorem Sound.history_turned (sound : Sound origin s) (here : s.calls[n]? = some st)
    (turned : Turned s n st next t) (d : DrawableId) :
    SlotHistory d (t.bridge.buffer? d) t.events := by
  have before := sound.history d
  have kept (other : st.slot? ≠ some d) : t.bridge.buffer? d = s.bridge.buffer? d :=
    Bridge.buffer?_congr (turned.deed.slots.2 d other)
  cases turned.deed with
  | quiet scene _ events =>
    rw [events, Bridge.buffer?, scene]
    exact before
  | @settled w b _ held bridge events =>
    rw [bridge, events]
    by_cases same : w.content = d
    · subst same
      rw [held] at before ⊢
      exact .settled before
    · exact .other (fun at_ => same (Option.some.inj at_)) before
  | @installed w i _ _ allocated bridge events =>
    rw [events]
    by_cases same : w.content = d
    · subst same
      rw [sound.lacking here] at before
      rw [bridge, Bridge.buffer?_install]
      change SlotHistory _ (if w.content < s.bridge.slots.length then _ else _) _
      -- the drawable is there, for otherwise the image would have been put nowhere
      rw [if_pos (sound.inside here rfl)]
      exact .settled (.provided before)
    · have other : some w.content ≠ some d := fun at_ => same (Option.some.inj at_)
      rw [kept other]
      exact .other other (.other other before)
  | @replaced e x _ bridge events =>
    rw [events]
    by_cases same : e = d
    · subst same
      exact .replaced before
    · have other : some e ≠ some d := fun at_ => same (Option.some.inj at_)
      rw [kept other]
      exact .other other before
  | redrawn bridge events =>
    have nowhere : none ≠ some d := (Option.some_ne_none d).symm
    rw [events, kept nowhere]
    exact .other nowhere before

theorem Sound.turned (sound : Sound origin s) (here : s.calls[n]? = some st)
    (turned : Turned s n st next t) : Sound origin t := by
  obtain ⟨length, slots⟩ := turned.deed.slots
  have windows := turned.deed.windows
  exact {
    render := turned.calls ▸ sound.render.turn here turned.render
    slot := turned.calls ▸ sound.slot.turn here turned.slot
    anchored := by
      intro d shown
      change d ∈ t.bridge.scene.windows.map Window.content at shown
      change d < t.bridge.slots.length
      rw [length]
      rw [windows] at shown
      exact sound.anchored d shown
    inside := by
      intro m old w there shows
      rw [length]
      rcases turned.stage there with ⟨rfl, rfl⟩ | ⟨-, there⟩
      · rcases turned.seen with none | same | ⟨v, known, same⟩
        · cases none.symm.trans shows
        · exact sound.inside here (same.symm.trans shows)
        · cases same.symm.trans shows
          exact sound.anchored _ (List.mem_map_of_mem known)
      · exact sound.inside there shows
    lacking := by
      intro m w there
      rcases turned.stage there with ⟨rfl, next⟩ | ⟨other, there⟩
      · cases turned.deed with
        | quiet scene _ _ lacks =>
          rw [Bridge.buffer?, scene]
          exact lacks w (by rw [← next]; rfl)
        | settled | installed | replaced | redrawn => cases next
      · -- whoever puts something into the slot holds its lock, which is this call's
        have apart : st.slot? ≠ some w.content := by
          intro holds
          exact other (sound.slot.unique there here rfl holds)
        rw [Bridge.buffer?_congr (slots _ apart)]
        exact sound.lacking there
    justified := by
      intro m old there
      rcases turned.stage there with ⟨rfl, rfl⟩ | ⟨-, there⟩
      · exact turned.deed.justified (sound.justified here)
      · exact (sound.justified there).mono turned.deed.more
    given := turned.deed.given sound.given
    history := sound.history_turned here turned }

theorem Sound.of_reaches (anchored : origin.whereabouts.Anchored)
    (run : Reaches step ⟨origin, fun _ => {}, fun _ => {}, [], []⟩ s) : Sound origin s := by
  apply run.keeps (P := Sound origin)
  · intro a b turn sound taken
    cases stepped taken with
    | begun begins => exact sound.begin begins
    | turned _ here turned => exact sound.turned here turned
  · exact {
      render := fun d n => by simp
      slot := fun d n => by simp
      anchored
      inside := by
        intro n st w there
        cases there
      lacking := by
        intro n w there
        cases there
      justified := by
        intro n st there
        cases there
      given := rfl
      history := fun d => .start _ }

/-- Since the last replacement, an image was put into the slot once at most, and all who settled on
a buffer have settled on the one that is there. -/
theorem SlotHistory.recent {b : Option HardwareBuffer} {between older : List DrawableEvent}
    (history : SlotHistory d b (between ++ older)) (undisturbed : ∀ n, .replaced n d ∉ between) :
    (∀ n c, .settled n d c ∈ between → b = some c) ∧
      between.countP (DrawableEvent.provides d) ≤ b.toList.length := by
  induction between generalizing b with
  | nil =>
    constructor
    · intro n c settled
      cases settled
    · exact Nat.zero_le _
  | cons e between ih =>
    have before (n : Nat) : .replaced n d ∉ between :=
      fun early => undisturbed n (List.mem_cons_of_mem _ early)
    rw [List.countP_cons]
    cases history with
    | provided lacks =>
      obtain ⟨none, never⟩ := ih lacks before
      constructor
      · intro n c settled
        rcases List.mem_cons.mp settled with same | settled
        · cases same
        · cases none n c settled
      · rw [Nat.le_zero.mp never]
        simp [DrawableEvent.provides]
    | settled holds =>
      obtain ⟨agreed, once⟩ := ih holds before
      refine ⟨?_, once⟩
      intro n c settled
      rcases List.mem_cons.mp settled with same | settled
      · cases same
        rfl
      · exact agreed n c settled
    | @replaced n => exact absurd List.mem_cons_self (undisturbed n)
    | other elsewhere history =>
      obtain ⟨agreed, once⟩ := ih history before
      constructor
      · intro n c settled
        rcases List.mem_cons.mp settled with same | settled
        · exact absurd (congrArg DrawableEvent.slot? same.symm) elsewhere
        · exact agreed n c settled
      · rw [if_neg fun provides => elsewhere (DrawableEvent.slot?_of_provides provides)]
        exact once

theorem SlotHistory.older {b : Option HardwareBuffer} {newer es : List DrawableEvent}
    (history : SlotHistory d b (newer ++ es)) : ∃ c, SlotHistory d c es := by
  induction newer generalizing b with
  | nil => exact ⟨b, history⟩
  | cons e newer ih =>
    cases history with
    | provided before => exact ih before
    | settled before => exact ih before
    | replaced before => exact ih before
    | other _ before => exact ih before

/-- While nobody puts a texture of his own into the slot of a drawable, an image is put there once
at most, and all who settle on a buffer settle on the same. -/
theorem Sound.agreed (sound : Sound origin s) {between : List DrawableEvent}
    (part : between <:+: s.events) (undisturbed : ∀ n, .replaced n d ∉ between) :
    between.countP (DrawableEvent.provides d) ≤ 1 ∧
      ∀ n m b c, .settled n d b ∈ between → .settled m d c ∈ between → b = c := by
  obtain ⟨newer, older, whole⟩ := part
  have history := sound.history d
  rw [← whole, List.append_assoc] at history
  obtain ⟨b, history⟩ := history.older
  obtain ⟨agreed, once⟩ := history.recent undisturbed
  constructor
  · apply once.trans
    cases b with
    | none => exact Nat.zero_le _
    | some _ => exact Nat.le_refl _
  · intro n m b c first second
    exact Option.some.inj ((agreed n b first).symm.trans (agreed m c second))

theorem Deed.redrawn_of_updates (deed : Deed s n st next t)
    (changed : t.bridge.updates? d ≠ s.bridge.updates? d) :
    ∃ w, st = .redraw w ∧ next = .leave w .redrawn ∧ w.content = d := by
  cases deed with
  | quiet scene =>
    rw [Bridge.updates?, scene] at changed
    exact absurd rfl changed
  | settled _ bridge =>
    rw [bridge] at changed
    exact absurd rfl changed
  | installed _ bridge =>
    rw [bridge, Bridge.updates?, Bridge.scene_install] at changed
    exact absurd (Bridge.updates_setTexture ..) changed
  | replaced bridge =>
    rw [bridge] at changed
    exact absurd (Bridge.updates_setTexture ..) changed
  | @redrawn w _ bridge =>
    refine ⟨w, rfl, rfl, ?_⟩
    by_contra other
    rw [bridge, Bridge.updates?_redraw _ other] at changed
    exact absurd rfl changed

theorem goes (there : s.calls[n]? = some st) (gone : (s.advance n st).isSome) :
    ∃ m t, s.step (.go m) = some t := by
  obtain ⟨t, gone⟩ := Option.isSome_iff_exists.mp gone
  refine ⟨n, t, ?_⟩
  rw [step, there]
  exact gone

/-- The call that holds the lock of a slot waits for nobody. -/
theorem goes_of_slot (holds : st.slot? = some d) : (s.advance n st).isSome := by
  cases st with
  | check w =>
    rw [advance]
    split <;> rfl
  | provide | withdraw | replace | look | release => rfl
  | _ => cases holds

theorem Sound.slot_free (sound : Sound origin s) (stuck : ∀ m t, s.step (.go m) ≠ some t)
    (d : DrawableId) : (s.slot d).holder = none := by
  cases held : (s.slot d).holder with
  | none => rfl
  | some n =>
    obtain ⟨st, there, holds⟩ := Option.bind_eq_some_iff.mp ((sound.slot d n).mp held)
    obtain ⟨m, t, going⟩ := goes there (goes_of_slot holds)
    exact absurd going (stuck m t)

/-- The call that holds a render lock waits for the lock of a slot at most. -/
theorem goes_of_render (holds : st.render? = some d) (slots : ∀ e, (s.slot e).holder = none) :
    (s.advance n st).isSome := by
  cases st with
  | reach w =>
    rw [advance, Locks.take_of_free n (slots _)]
    rfl
  | check w =>
    rw [advance]
    split <;> rfl
  | provide | withdraw | redraw | leave => rfl
  | _ => cases holds

theorem Sound.render_free (sound : Sound origin s) (stuck : ∀ m t, s.step (.go m) ≠ some t)
    (d : DrawableId) : (s.render d).holder = none := by
  cases held : (s.render d).holder with
  | none => rfl
  | some n =>
    obtain ⟨st, there, holds⟩ := Option.bind_eq_some_iff.mp ((sound.render d n).mp held)
    obtain ⟨m, t, going⟩ := goes there (goes_of_render holds (sound.slot_free stuck))
    exact absurd going (stuck m t)

theorem goes_of_free (unfinished : ∀ r, st ≠ .ended r) (renders : ∀ d, (s.render d).holder = none)
    (slots : ∀ d, (s.slot d).holder = none) : (s.advance n st).isSome := by
  cases st with
  | resolve | refresh | check =>
    rw [advance]
    split <;> rfl
  | enter | approach =>
    rw [advance, Locks.take_of_free n (renders _)]
    rfl
  | reach | setTexture | buffer =>
    rw [advance, Locks.take_of_free n (slots _)]
    rfl
  | provide | withdraw | redraw | leave | replace | look | release => rfl
  | ended r => exact absurd rfl (unfinished r)

theorem Sound.goes_on (sound : Sound origin s) (there : s.calls[n]? = some st)
    (unfinished : ∀ r, st ≠ .ended r) : ∃ m t, s.step (.go m) = some t := by
  by_contra nobody
  have stuck (m : Nat) (t : SharedBridge) : s.step (.go m) ≠ some t :=
    fun going => nobody ⟨m, t, going⟩
  -- the locks are taken in one order: those of slots are free first, and then the render locks
  exact nobody
    (goes there (goes_of_free unfinished (sound.render_free stuck) (sound.slot_free stuck)))

def unmarked (s : SharedBridge) : SharedBridge :=
  { s with render := s.render.unmarked, slot := s.slot.unmarked }

theorem unmarked_advance (s : SharedBridge) (n : Nat) (st : CallStage) :
    (s.unmarked.advance n st).map unmarked = (s.advance n st).map unmarked := by
  have bridge : s.unmarked.bridge = s.bridge := rfl
  have renders (next : CallStage) (d : DrawableId) :
      ((s.render.unmarked.take d n).map fun render => { s.unmarked with render }.put n next).map
          unmarked =
        ((s.render.take d n).map fun render => { s with render }.put n next).map unmarked := by
    rw [Option.map_map, Option.map_map]
    apply Locks.take_unmarked
    exact fun same => congrArg (fun render => { s.unmarked with render }.put n next) same
  have slots (next : CallStage) (d : DrawableId) :
      ((s.slot.unmarked.take d n).map fun slot => { s.unmarked with slot }.put n next).map
          unmarked =
        ((s.slot.take d n).map fun slot => { s with slot }.put n next).map unmarked := by
    rw [Option.map_map, Option.map_map]
    apply Locks.take_unmarked
    exact fun same => congrArg (fun slot => { s.unmarked with slot }.put n next) same
  cases st with
  | resolve id | refresh id =>
    rw [advance, advance, bridge]
    cases s.bridge.scene.window? id <;> rfl
  | enter w => exact renders (.reach w) w.content
  | approach w => exact renders (.redraw w) w.content
  | reach w => exact slots (.check w) w.content
  | setTexture d x => exact slots (.replace d x) d
  | buffer d => exact slots (.look d) d
  | check w =>
    rw [advance, advance, bridge]
    cases s.bridge.buffer? w.content <;> rfl
  | provide w =>
    rw [advance, advance, provide, provide, bridge, Bridge.provide]
    rcases s.bridge.backend.allocate w.width w.height with ⟨_ | i, backend⟩ <;> rfl
  | withdraw w u =>
    exact congrArg (fun slot => some ({ s.unmarked with slot }.put n (.leave w (.surface u))))
      (s.slot.unmarked_free w.content)
  | leave w r =>
    exact congrArg (fun render => some ({ s.unmarked with render }.put n (.ended r)))
      (s.render.unmarked_free w.content)
  | release d r =>
    exact congrArg (fun slot => some ({ s.unmarked with slot }.put n (.ended r)))
      (s.slot.unmarked_free d)
  | redraw | replace | look | ended => rfl

theorem unmarked_step (s : SharedBridge) (turn : Turn) :
    (s.unmarked.step turn).map unmarked = (s.step turn).map unmarked := by
  have calls : s.unmarked.calls = s.calls := rfl
  cases turn with
  | begin first =>
    rw [step, step]
    split <;> rfl
  | go n =>
    rw [step, step, calls]
    cases s.calls[n]? with
    | none => rfl
    | some st => exact s.unmarked_advance n st
  | panic n =>
    have abandoned : (s.unmarked.panic n).unmarked = (s.panic n).unmarked := by
      change { s.unmarked with
        render := (s.render.unmarked.abandon n).unmarked
        slot := (s.slot.unmarked.abandon n).unmarked }.put n (.ended .panicked) = _
      rw [Locks.unmarked_abandon, Locks.unmarked_abandon]
      rfl
    rw [step, step, calls]
    cases s.calls[n]? with
    | none => rfl
    | some st =>
      cases st with
      | ended r => rfl
      | _ => exact congrArg some abandoned

/-- Whatever marks the locks have, the same turns can be taken, and they come to the same. -/
theorem unmarked_foldlM (same : s.unmarked = t.unmarked) (turns : List Turn) :
    (turns.foldlM step s).map unmarked = (turns.foldlM step t).map unmarked := by
  induction turns generalizing s t with
  | nil => exact congrArg some same
  | cons turn turns ih =>
    have first : (s.step turn).map unmarked = (t.step turn).map unmarked := by
      rw [← unmarked_step, same, unmarked_step]
    rw [List.foldlM_cons, List.foldlM_cons]
    cases one : s.step turn with
    | none =>
      rw [one, Option.map_none, eq_comm, Option.map_eq_none_iff] at first
      rw [first]
    | some u =>
      rw [one, Option.map_some, eq_comm, Option.map_eq_some_iff] at first
      obtain ⟨v, other, same⟩ := first
      rw [other]
      exact ih same.symm

/-- However the turns of the calls come and whichever panic, a drawable is redrawn only under its
render lock, it gets one image until somebody replaces that, and while a call has not ended some
call can go on. -/
theorem locks_run {origin : Bridge} (anchored : origin.whereabouts.Anchored)
    (run : Reaches step { bridge := origin } s) :
    (∀ (n : Nat) (w : Window), s.calls[n]? = some (.redraw w) →
      (s.render w.content).holder = some n ∧
        ∀ (m : Nat) (v : Window), v.content = w.content →
          s.calls[m]? ≠ some (.check v) ∧ s.calls[m]? ≠ some (.provide v)) ∧
    (∀ turn t d, s.step turn = some t → t.bridge.updates? d ≠ s.bridge.updates? d →
      ∃ (n : Nat) (w : Window), turn = .go n ∧ s.calls[n]? = some (.redraw w) ∧ w.content = d) ∧
    s.bridge.given = s.events.filterMap DrawableEvent.provided? ++ origin.given ∧
    (∀ between d, between <:+: s.events → (∀ n, .replaced n d ∉ between) →
      between.countP (DrawableEvent.provides d) ≤ 1 ∧
        ∀ n m b c, .settled n d b ∈ between → .settled m d c ∈ between → b = c) ∧
    (∀ (n : Nat) w u b, s.calls[n]? = some (.leave w (.surface u)) → u.buffer = some b →
      .settled n w.content b ∈ s.events) ∧
    (∀ (n : Nat) u b, s.calls[n]? = some (.ended (.surface u)) → u.buffer = some b →
      ∃ d, .settled n d b ∈ s.events) ∧
    (∀ (t : SharedBridge) (turns : List Turn), t.unmarked = s.unmarked →
      (turns.foldlM step t).map unmarked = (turns.foldlM step s).map unmarked) ∧
    ∀ (n : Nat) (st : CallStage), s.calls[n]? = some st → (∀ r, st ≠ .ended r) →
      ∃ m t, s.step (.go m) = some t := by
  have sound := Sound.of_reaches anchored run
  refine ⟨?_, ?_, sound.given, ?_, ?_, ?_, ?_, ?_⟩
  · intro n w there
    constructor
    · apply (sound.render _ n).mpr
      rw [there]
      rfl
    · intro m v same
      have alone {st : CallStage} (other : s.calls[m]? = some st)
          (holds : st.render? = some v.content) : st = .redraw w := by
        have one : m = n := sound.render.unique other there holds (congrArg some same.symm)
        rw [one, there] at other
        exact (Option.some.inj other).symm
      constructor
      · intro checks
        cases alone checks rfl
      · intro provides
        cases alone provides rfl
  · intro turn t d taken changed
    cases stepped taken with
    | begun => exact absurd rfl changed
    | @turned _ n _ next _ whose here turned =>
      obtain ⟨w, rfl, rfl, content⟩ := turned.deed.redrawn_of_updates changed
      rcases whose with rfl | panicked
      · exact ⟨n, w, rfl, here, content⟩
      · cases panicked
  · intro between d part undisturbed
    exact sound.agreed part undisturbed
  · intro n w u b there
    exact sound.justified there b
  · intro n u b there
    exact sound.justified there b
  · intro t turns same
    exact unmarked_foldlM same turns
  · intro n st there unfinished
    exact sound.goes_on there unfinished

/-- Two windows show one drawable. The first call panics under the render lock, another redraws, two
more find the same buffer, and the last one waits for the render lock. -/
theorem locks_run_shared :
    let origin : Bridge :=
      { scene :=
        { drawables := [{ width := 4, height := 4 }], windows := [⟨1, 8, 8, 0⟩, ⟨2, 16, 9, 0⟩] } }
    let first : List Turn :=
      [.begin (.resolve 1), .go 0, .go 0, .panic 0, .begin (.refresh 2), .go 1, .go 1]
    let rest : List Turn :=
      [.go 1, .go 1, .begin (.resolve 1), .go 2, .go 2, .go 2, .go 2, .go 2, .go 2, .go 2,
        .begin (.resolve 2), .go 3, .go 3, .go 3, .go 3, .go 3, .begin (.refresh 1), .go 4]
    let x : HardwareBuffer := ⟨1, by decide⟩
    (∃ s, first.foldlM step { bridge := origin } = some s ∧
      s.calls = [.ended .panicked, .redraw ⟨2, 16, 9, 0⟩] ∧ (s.render 0).poisoned = true ∧
      (s.render 0).holder = some 1) ∧
    ∃ t, (first ++ rest).foldlM step { bridge := origin } = some t ∧
      t.calls = [.ended .panicked, .ended .redrawn, .ended (.surface ⟨8, 8, some x⟩),
        .leave ⟨2, 16, 9, 0⟩ (.surface ⟨16, 9, some x⟩), .approach ⟨1, 8, 8, 0⟩] ∧
      t.events = [.settled 3 0 x, .settled 2 0 x, .provided 2 0 x, .redrawn 1 0] ∧
      t.bridge.given = [x] ∧ (t.step (.go 4)).isNone ∧ ∃ m u, t.step (.go m) = some u := by
  intro origin first rest x
  have anchored : origin.whereabouts.Anchored := by
    change ∀ d ∈ [0, 0], d < 1
    decide
  have view {turns : List Turn} {t : SharedBridge} {α : Type} {a : α} (f : SharedBridge → α)
      (run : turns.foldlM step { bridge := origin } = some t)
      (shown : (turns.foldlM step { bridge := origin }).map f = some a) : f t = a := by
    rw [run] at shown
    exact Option.some.inj shown
  constructor
  · obtain ⟨s, run⟩ : ∃ s, first.foldlM step { bridge := origin } = some s :=
      Option.isSome_iff_exists.mp (by decide +kernel)
    obtain ⟨held, -⟩ := locks_run anchored (Reaches.of_foldlM run)
    have calls : s.calls = [.ended .panicked, .redraw ⟨2, 16, 9, 0⟩] :=
      view calls run (by decide +kernel)
    refine ⟨s, run, calls, view (fun s => (s.render 0).poisoned) run (by decide +kernel), ?_⟩
    exact (held 1 ⟨2, 16, 9, 0⟩ (by rw [calls]; rfl)).1
  · obtain ⟨t, run⟩ : ∃ t, (first ++ rest).foldlM step { bridge := origin } = some t :=
      Option.isSome_iff_exists.mp (by decide +kernel)
    obtain ⟨-, -, given, -, -, -, -, goes⟩ := locks_run anchored (Reaches.of_foldlM run)
    have calls : t.calls[4]? = some (.approach ⟨1, 8, 8, 0⟩) :=
      view (fun t => t.calls[4]?) run (by decide +kernel)
    have events : t.events = [.settled 3 0 x, .settled 2 0 x, .provided 2 0 x, .redrawn 1 0] :=
      view events run (by decide +kernel)
    refine ⟨t, run, view SharedBridge.calls run (by decide +kernel), events, ?_,
      view (fun t => (t.step (.go 4)).isNone) run (by decide +kernel), ?_⟩
    · rw [given, events]
      rfl
    · apply goes 4 _ calls
      rintro r ⟨⟩

end SharedBridge

end RenderBroker
