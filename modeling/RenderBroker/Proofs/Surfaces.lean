import RenderBroker.Proofs.Renderer
import RenderBroker.Proofs.Textures

namespace RenderBroker

def BackendCall.size? : BackendCall → Option (UInt16 × UInt16)
  | .allocate width height _ => some (width, height)
  | _ => none

/-- What is done with a bridge, for contexts as well as for windows. -/
inductive BridgeStep where
  | createContext (fd : Descriptor) (o : RenderOptions)
  | destroyContext (h : ContextHandle)
  /-- A texture that somebody has outside is destroyed at once. -/
  | destroyTexture (t : Texture)
  | scene (s : TextureStep)

namespace Bridge

def perform (b : Bridge) : BridgeStep → Bridge
  | .createContext fd o => (b.createContext fd o).2
  | .destroyContext h => b.destroyContext h
  | .destroyTexture t => b.destroyTexture t
  | .scene s => (Custody.perform ⟨b, {}⟩ s).bridge

def run (b : Bridge) (steps : List BridgeStep) : Bridge :=
  steps.foldl perform b

def Holds (b : Bridge) (d : DrawableId) (x : HardwareBuffer) : Prop :=
  ∃ drawable i, b.scene.drawable? d = some drawable ∧ drawable.texture = some (.image i) ∧
    i.buffer = x

def asked (b : Bridge) : List (UInt16 × UInt16) :=
  b.backend.calls.reverse.filterMap BackendCall.size?

/-- The size of a window that a step resolves, if it is there and its drawable has no image. -/
def wanted (b : Bridge) : BridgeStep → Option (UInt16 × UInt16)
  | .scene (.resolve id) =>
    (b.scene.window? id).bind fun w =>
      if b.buffer? w.content = none then some (w.width, w.height) else none
  | _ => none

def installed? (b : Bridge) : BridgeStep → Option (DrawableId × HardwareBuffer)
  | .scene (.resolve id) =>
    (b.scene.window? id).bind fun w =>
      if b.buffer? w.content = none then
        ((b.resolve id).2.buffer? w.content).map fun x => (w.content, x)
      else none
  | _ => none

def installs : Bridge → List BridgeStep → List (DrawableId × HardwareBuffer)
  | _, [] => []
  | b, s :: steps => (b.installed? s).toList ++ installs (b.perform s) steps

variable {b c : Bridge} {d : DrawableId} {x : HardwareBuffer}

/-- The ways to resolve a window. -/
inductive Resolved (b : Bridge) (id : UInt32) : WindowSurface × Bridge → Prop
  | missing (absent : b.scene.window? id = none) :
      Resolved b id (.empty, b.tell (.windowNotResolved id))
  | held {w : Window} {x : HardwareBuffer} (found : b.scene.window? id = some w)
      (held : b.buffer? w.content = some x) : Resolved b id (⟨w.width, w.height, some x⟩, b)
  | failed {w : Window} {backend : Backend} (found : b.scene.window? id = some w)
      (lacks : b.buffer? w.content = none)
      (refused : b.backend.allocate w.width w.height = (none, backend)) :
      Resolved b id (⟨w.width, w.height, none⟩,
        { b with backend }.tell (.allocationFailed w.id w.width w.height))
  | installed {w : Window} {i : GpuImage} {backend : Backend} (found : b.scene.window? id = some w)
      (lacks : b.buffer? w.content = none)
      (given : b.backend.allocate w.width w.height = (some i, backend)) :
      Resolved b id (⟨w.width, w.height, some i.buffer⟩, { b with backend }.install w i)

theorem resolved (b : Bridge) (id : UInt32) : Resolved b id (b.resolve id) := by
  rw [resolve]
  cases found : b.scene.window? id with
  | none => exact .missing found
  | some w =>
    dsimp only
    rw [surfaceOf]
    cases buffer : b.buffer? w.content with
    | some x => exact .held found buffer
    | none =>
      dsimp only
      rw [provide]
      rcases given : b.backend.allocate w.width w.height with ⟨_ | i, backend⟩
      · exact .failed found buffer given
      · exact .installed found buffer given

theorem resolve_of_held {id : UInt32} {w : Window} (found : b.scene.window? id = some w)
    (held : b.buffer? w.content = some x) : b.resolve id = (⟨w.width, w.height, some x⟩, b) := by
  rw [resolve, found]
  dsimp only
  rw [surfaceOf, held]

theorem holds_iff : b.Holds d x ↔ b.buffer? d = some x := by
  rw [buffer?, Option.bind_eq_some_iff]
  constructor
  · rintro ⟨drawable, i, there, texture, rfl⟩
    refine ⟨drawable, there, ?_⟩
    rw [Drawable.buffer?, texture]
    rfl
  · rintro ⟨drawable, there, buffer⟩
    rw [Drawable.buffer?, Option.bind_eq_some_iff] at buffer
    obtain ⟨t, texture, buffer⟩ := buffer
    cases t with
    | plain t => cases buffer
    | image i => exact ⟨drawable, i, there, texture, Option.some.inj buffer⟩

theorem slots_install (b : Bridge) (w : Window) (i : GpuImage) :
    (b.install w i).slots = b.slots.set w.content (some (.image i)) :=
  (congrArg Whereabouts.slots (b.whereabouts_install w i)).trans (Whereabouts.slots_discard ..)

theorem backend_install (b : Bridge) (w : Window) (i : GpuImage) :
    (b.install w i).backend = b.backend := by
  rw [install]
  dsimp only
  split
  · rw [discard]
    dsimp only
    split <;> rfl
  · rfl

theorem buffer?_congr (same : c.slots[d]? = b.slots[d]?) : c.buffer? d = b.buffer? d := by
  rw [buffer?_eq, buffer?_eq, same]

theorem buffer?_install (b : Bridge) (w : Window) (i : GpuImage) :
    (b.install w i).buffer? w.content =
      if w.content < b.slots.length then some i.buffer else none := by
  rw [buffer?_eq, slots_install]
  split
  · next there =>
    rw [List.getElem?_set_self there]
    rfl
  · next gone =>
    rw [List.getElem?_eq_none (by simpa using gone)]
    rfl

/-- A window that resolves to a buffer is there, and its drawable holds the buffer then. -/
theorem resolve_buffer (anchored : b.whereabouts.Anchored) {id : UInt32}
    (found : (b.resolve id).1.buffer = some x) :
    ∃ w, b.scene.window? id = some w ∧ (b.resolve id).1 = ⟨w.width, w.height, some x⟩ ∧
      (b.resolve id).2.buffer? w.content = some x := by
  have resolved := b.resolved id
  generalize b.resolve id = r at resolved found ⊢
  cases resolved with
  | missing absent => cases found
  | held there held =>
    cases found
    exact ⟨_, there, rfl, held⟩
  | failed there lacks refused => cases found
  | @installed w i backend there lacks given =>
    cases found
    have slot : w.content < b.slots.length :=
      anchored _ (List.mem_map_of_mem (List.mem_of_find?_eq_some there))
    refine ⟨w, there, rfl, ?_⟩
    rw [buffer?_install]
    exact if_pos slot

theorem resolve_nothing {id : UInt32} (nothing : (b.resolve id).1.buffer = none) :
    (b.resolve id).2.scene = b.scene ∧ (b.resolve id).2.discarded = b.discarded := by
  have resolved := b.resolved id
  generalize b.resolve id = r at resolved nothing ⊢
  cases resolved with
  | missing absent => exact ⟨rfl, rfl⟩
  | held there held => cases nothing
  | failed there lacks refused => exact ⟨rfl, rfl⟩
  | installed there lacks given => cases nothing

theorem resolve_size (b : Bridge) (id : UInt32) :
    (b.resolve id).1.width = b.windowWidth id ∧ (b.resolve id).1.height = b.windowHeight id := by
  rw [windowWidth, windowHeight]
  have resolved := b.resolved id
  generalize b.resolve id = r at resolved ⊢
  cases resolved with
  | missing absent => simp [absent, WindowSurface.empty]
  | held there held => simp [there]
  | failed there lacks refused => simp [there]
  | installed there lacks given => simp [there]

theorem asked_of_call {call : BackendCall} (calls : c.backend.calls = call :: b.backend.calls) :
    c.asked = b.asked ++ call.size?.toList := by
  rw [asked, calls, List.reverse_cons, List.filterMap_append, asked]
  cases size : call.size? <;> simp [size]

theorem asked_of_other {call : BackendCall} (calls : c.backend.calls = call :: b.backend.calls)
    (other : call.size? = none) : c.asked = b.asked := by
  rw [asked_of_call calls, other]
  exact List.append_nil _

/-- The backend was asked for no image, and what it has to give is what it was. -/
structure Unasked (b c : Bridge) : Prop where
  asked : c.asked = b.asked
  allocations : c.backend.allocations = b.backend.allocations
  next : c.backend.loopback.nextBuffer = b.backend.loopback.nextBuffer

/-- What becomes of the slots and the windows, and of what the backend has to give. -/
inductive Effect (b : Bridge) (s : BridgeStep) (c : Bridge) : Prop
  | still (unwanted : b.wanted s = none) (unasked : Unasked b c) (slots : c.slots = b.slots)
      (shown : ∀ d ∈ c.whereabouts.shown, d ∈ b.whereabouts.shown ∨ d < b.slots.length)
  | placed {d : DrawableId} {t : Texture} (put : s = .scene (.setTexture d t))
      (unasked : Unasked b c) (slots : c.slots = b.slots.set d (some t))
      (shown : c.whereabouts.shown = b.whereabouts.shown)
  | grown (t : Option Texture) (unwanted : b.wanted s = none) (unasked : Unasked b c)
      (slots : c.slots = b.slots ++ [t]) (shown : c.whereabouts.shown = b.whereabouts.shown)
  | refused {w : Window} {backend : Backend} (wanted : b.wanted s = some (w.width, w.height))
      (given : b.backend.allocate w.width w.height = (none, backend)) (kept : c.backend = backend)
      (slots : c.slots = b.slots) (shown : c.whereabouts.shown = b.whereabouts.shown)
  | installed {w : Window} {i : GpuImage} {backend : Backend}
      (wanted : b.wanted s = some (w.width, w.height)) (lacks : b.buffer? w.content = none)
      (given : b.backend.allocate w.width w.height = (some i, backend))
      (kept : c.backend = backend) (slots : c.slots = b.slots.set w.content (some (.image i)))
      (shown : c.whereabouts.shown = b.whereabouts.shown)

theorem Effect.rest {s : BridgeStep} (unwanted : b.wanted s = none) (unasked : Unasked b c)
    (slots : c.slots = b.slots) (shown : c.whereabouts.shown = b.whereabouts.shown) :
    Effect b s c := by
  refine .still unwanted unasked slots ?_
  intro d hd
  exact .inl (shown ▸ hd)

theorem unasked_createContext (b : Bridge) (fd : Descriptor) (o : RenderOptions) :
    Unasked b (b.createContext fd o).2 := by
  obtain ⟨raw, -, calls⟩ := b.calls_createContext fd o
  refine ⟨asked_of_other calls rfl, ?_, ?_⟩
  · change (b.backend.createContext fd o).2.allocations = _
    rw [Backend.createContext]
    split <;> rfl
  · change (b.backend.createContext fd o).2.loopback.nextBuffer = _
    rw [Backend.createContext]
    split
    · rfl
    · change b.backend.loopback.createContext.2.nextBuffer = _
      rw [Loopback.createContext]
      split <;> rfl

theorem unasked_destroyContext (b : Bridge) (h : ContextHandle) :
    Unasked b (b.destroyContext h) := by
  refine ⟨asked_of_other (b.calls_destroyContext h) rfl, ?_, ?_⟩
  · change (b.backend.destroyContext h).2.allocations = _
    rw [Backend.destroyContext]
    split <;> rfl
  · change (b.backend.destroyContext h).2.loopback.nextBuffer = _
    rw [Backend.destroyContext]
    split <;> rfl

theorem unasked_destroyTexture (b : Bridge) (t : Texture) : Unasked b (b.destroyTexture t) :=
  ⟨asked_of_other (b := b) (c := b.destroyTexture t) rfl rfl, rfl, rfl⟩

theorem unasked_destroyTextures (b : Bridge) (ts : List Texture) :
    Unasked b (ts.foldl destroyTexture b) := by
  induction ts generalizing b with
  | nil => exact ⟨rfl, rfl, rfl⟩
  | cons t ts ih =>
    obtain ⟨rest, allocations, next⟩ := ih (b.destroyTexture t)
    exact ⟨rest.trans (b.unasked_destroyTexture t).asked, allocations, next⟩

theorem effect_resolve (b : Bridge) (id : UInt32) :
    Effect b (.scene (.resolve id)) (b.resolve id).2 := by
  have wants {w : Window} (there : b.scene.window? id = some w) :
      b.wanted (.scene (.resolve id)) =
        if b.buffer? w.content = none then some (w.width, w.height) else none := by
    rw [wanted, there, Option.bind_some]
  have resolved := b.resolved id
  generalize b.resolve id = r at resolved ⊢
  cases resolved with
  | missing absent =>
    have unwanted : b.wanted (.scene (.resolve id)) = none := by
      rw [wanted, absent, Option.bind_none]
    exact .rest unwanted ⟨rfl, rfl, rfl⟩ rfl rfl
  | held there held => exact .rest ((wants there).trans (by simp [held])) ⟨rfl, rfl, rfl⟩ rfl rfl
  | failed there lacks refused =>
    exact .refused ((wants there).trans (if_pos lacks)) refused rfl rfl rfl
  | @installed w i backend there lacks given =>
    have shown := congrArg Whereabouts.shown (whereabouts_install { b with backend } w i)
    rw [Whereabouts.install, Whereabouts.shown_discard] at shown
    exact .installed ((wants there).trans (if_pos lacks)) lacks given (backend_install _ w i)
      (slots_install _ w i) shown

theorem effect (b : Bridge) (s : BridgeStep) : Effect b s (b.perform s) := by
  cases s with
  | createContext fd o => exact .rest rfl (b.unasked_createContext fd o) rfl rfl
  | destroyContext h => exact .rest rfl (b.unasked_destroyContext h) rfl rfl
  | destroyTexture t => exact .rest rfl (b.unasked_destroyTexture t) rfl rfl
  | scene s =>
    cases s with
    | resolve id => exact b.effect_resolve id
    | refresh id =>
      have same := b.whereabouts_refresh id
      have unasked : Unasked b (b.refresh id) := by
        rw [refresh]
        split <;> exact ⟨rfl, rfl, rfl⟩
      exact .rest rfl unasked (congrArg Whereabouts.slots same) (congrArg Whereabouts.shown same)
    | setTexture d t =>
      rw [perform, Custody.perform]
      split
      · exact .placed rfl ⟨rfl, rfl, rfl⟩ (b.slots_setTexture d t) rfl
      · exact .rest rfl ⟨rfl, rfl, rfl⟩ rfl rfl
    | addDrawable drawable =>
      exact .grown drawable.texture rfl ⟨rfl, rfl, rfl⟩ (List.map_append ..) rfl
    | addWindow w =>
      rw [perform, Custody.perform]
      split
      · next there =>
        refine .still rfl ⟨rfl, rfl, rfl⟩ rfl ?_
        intro d hd
        rcases List.mem_cons.mp hd with rfl | hd
        · exact .inr there
        · exact .inl (b.shown_removeWindow w.id hd)
      · exact .rest rfl ⟨rfl, rfl, rfl⟩ rfl rfl
    | removeWindow id =>
      exact .still rfl ⟨rfl, rfl, rfl⟩ rfl fun d hd => .inl (b.shown_removeWindow id hd)
    | runPending =>
      have slots : b.runPending.2.slots = b.slots :=
        congrArg Whereabouts.slots b.whereabouts_runPending
      have shown : b.runPending.2.whereabouts.shown = b.whereabouts.shown := by
        rw [whereabouts_runPending]
      obtain ⟨asked, allocations, next⟩ := unasked_destroyTextures
        { b with discarded := { b.discarded with items := [] } } b.discarded.items
      exact .rest rfl ⟨asked, allocations, next⟩ slots shown
    | dropReceiver => exact .rest rfl ⟨rfl, rfl, rfl⟩ rfl rfl

theorem buffer?_perform (held : b.buffer? d = some x) {s : BridgeStep}
    (other : ∀ t, s ≠ .scene (.setTexture d t)) : (b.perform s).buffer? d = some x := by
  have keeps (same : (b.perform s).slots[d]? = b.slots[d]?) : (b.perform s).buffer? d = some x :=
    (buffer?_congr same).trans held
  cases b.effect s with
  | still _ _ slots => exact keeps (by rw [slots])
  | @placed e t put _ slots =>
    have apart : e ≠ d := by
      rintro rfl
      exact other t put
    exact keeps (by rw [slots, List.getElem?_set_ne apart])
  | grown t _ _ slots =>
    have inside : d < b.slots.length := by
      by_contra outside
      rw [buffer?_eq, List.getElem?_eq_none (Nat.not_lt.mp outside)] at held
      cases held
    exact keeps (by rw [slots, List.getElem?_append_left inside])
  | refused _ _ _ slots => exact keeps (by rw [slots])
  | @installed w i backend _ lacks _ _ slots =>
    -- the window's drawable had no image, so it is another one
    have apart : w.content ≠ d := by
      rintro rfl
      cases lacks.symm.trans held
    exact keeps (by rw [slots, List.getElem?_set_ne apart])

theorem buffer?_run {steps : List BridgeStep} (held : b.buffer? d = some x)
    (others : ∀ t, .scene (.setTexture d t) ∉ steps) : (b.run steps).buffer? d = some x := by
  induction steps generalizing b with
  | nil => exact held
  | cons s steps ih =>
    apply ih
    · apply buffer?_perform held
      rintro t rfl
      exact others t List.mem_cons_self
    · intro t later
      exact others t (List.mem_cons_of_mem _ later)

theorem anchored_perform (anchored : b.whereabouts.Anchored) (s : BridgeStep) :
    (b.perform s).whereabouts.Anchored := by
  have keeps (shown : (b.perform s).whereabouts.shown = b.whereabouts.shown)
      (slots : b.slots.length ≤ (b.perform s).slots.length) :
      (b.perform s).whereabouts.Anchored := by
    intro d hd
    rw [shown] at hd
    exact (anchored d hd).trans_le slots
  cases b.effect s with
  | still _ _ slots shown =>
    intro d hd
    change d < (b.perform s).slots.length
    rw [slots]
    exact (shown d hd).elim (anchored d) id
  | placed _ _ slots shown => exact keeps shown (by rw [slots, List.length_set])
  | grown t _ _ slots shown => exact keeps shown (by simp [slots])
  | refused _ _ _ slots shown => exact keeps shown (by rw [slots])
  | installed _ _ _ _ slots shown => exact keeps shown (by rw [slots, List.length_set])

theorem anchored_run (anchored : b.whereabouts.Anchored) (steps : List BridgeStep) :
    (b.run steps).whereabouts.Anchored := by
  induction steps generalizing b with
  | nil => exact anchored
  | cons s steps ih => exact ih (anchored_perform anchored s)

theorem asked_perform (b : Bridge) (s : BridgeStep) :
    (b.perform s).asked = b.asked ++ (b.wanted s).toList := by
  have idle (unwanted : b.wanted s = none) (unasked : Unasked b (b.perform s)) :
      (b.perform s).asked = b.asked ++ (b.wanted s).toList := by
    rw [unasked.asked, unwanted]
    exact (List.append_nil _).symm
  have asks {w : Window} {i : Option GpuImage} {backend : Backend}
      (wanted : b.wanted s = some (w.width, w.height))
      (given : b.backend.allocate w.width w.height = (i, backend))
      (kept : (b.perform s).backend = backend) :
      (b.perform s).asked = b.asked ++ (b.wanted s).toList := by
    obtain ⟨buffer, -, calls⟩ := Backend.allocate_eq given
    rw [wanted]
    exact asked_of_call (kept ▸ calls)
  cases b.effect s with
  | still unwanted unasked => exact idle unwanted unasked
  | placed put unasked => exact idle (by rw [put]; rfl) unasked
  | grown _ unwanted unasked => exact idle unwanted unasked
  | refused wanted given kept => exact asks wanted given kept
  | installed wanted _ given kept => exact asks wanted given kept

theorem asked_run (b : Bridge) (steps : List BridgeStep) : b.asked <+: (b.run steps).asked := by
  induction steps generalizing b with
  | nil => exact List.prefix_rfl
  | cons s steps ih =>
    have first : b.asked <+: (b.perform s).asked := ⟨_, (b.asked_perform s).symm⟩
    exact first.trans (ih (b.perform s))

structure Numbered (b : Bridge) : Prop where
  unscripted : b.backend.allocations = none
  next : b.backend.loopback.nextBuffer = UInt64.ofNat (b.asked.length + 1)

theorem allocate_unscripted {b backend : Backend} {width height : UInt16} {i : Option GpuImage}
    (unscripted : b.allocations = none) (given : b.allocate width height = (i, backend)) :
    i.map GpuImage.buffer = HardwareBuffer.ofRaw? b.loopback.nextBuffer ∧
      backend.allocations = none ∧
      backend.loopback.nextBuffer = b.loopback.nextBuffer + 1 := by
  rw [Backend.allocate, unscripted] at given
  cases given
  refine ⟨?_, rfl, rfl⟩
  cases HardwareBuffer.ofRaw? b.loopback.nextBuffer <;> rfl

theorem Numbered.perform (numbered : Numbered b) (s : BridgeStep) : Numbered (b.perform s) := by
  have idle (unasked : Unasked b (b.perform s)) : Numbered (b.perform s) := by
    constructor
    · rw [unasked.allocations, numbered.unscripted]
    · rw [unasked.next, numbered.next, unasked.asked]
  have asks {w : Window} {i : Option GpuImage} {backend : Backend}
      (wanted : b.wanted s = some (w.width, w.height))
      (given : b.backend.allocate w.width w.height = (i, backend))
      (kept : (b.perform s).backend = backend) : Numbered (b.perform s) := by
    obtain ⟨-, unscripted, next⟩ := allocate_unscripted numbered.unscripted given
    constructor
    · rw [kept, unscripted]
    · rw [kept, next, numbered.next, asked_perform, wanted, List.length_append]
      exact (UInt64.ofNat_add _ _).symm
  cases b.effect s with
  | still _ unasked => exact idle unasked
  | placed _ unasked => exact idle unasked
  | grown _ _ unasked => exact idle unasked
  | refused wanted given kept => exact asks wanted given kept
  | installed wanted _ given kept => exact asks wanted given kept

theorem installed?_eq_some {s : BridgeStep} {p : DrawableId × HardwareBuffer}
    (installed : b.installed? s = some p) :
    ∃ (w : Window) (i : GpuImage) (backend : Backend),
      b.wanted s = some (w.width, w.height) ∧
      b.backend.allocate w.width w.height = (some i, backend) ∧ p = (w.content, i.buffer) := by
  cases s with
  | createContext | destroyContext | destroyTexture => cases installed
  | scene s =>
    cases s with
    | resolve id =>
      rw [installed?] at installed
      rw [wanted]
      have resolved := b.resolved id
      generalize b.resolve id = r at resolved installed
      cases resolved with
      | missing absent =>
        rw [absent] at installed
        cases installed
      | held there held =>
        rw [there, Option.bind_some, if_neg (by simp [held])] at installed
        cases installed
      | @failed w backend there lacks refused =>
        rw [there, Option.bind_some, if_pos lacks] at installed
        change (b.buffer? w.content).map _ = some p at installed
        rw [lacks] at installed
        cases installed
      | @installed w i backend there lacks given =>
        rw [there, Option.bind_some, if_pos lacks, buffer?_install] at installed
        rw [there, Option.bind_some, if_pos lacks]
        split at installed
        · cases installed
          exact ⟨w, i, backend, rfl, given, rfl⟩
        · cases installed
    | _ => cases installed

theorem Numbered.installed (numbered : Numbered b) {s : BridgeStep}
    {p : DrawableId × HardwareBuffer} (installed : b.installed? s = some p) :
    p.2.raw = UInt64.ofNat (b.asked.length + 1) ∧
      (b.perform s).asked.length = b.asked.length + 1 := by
  obtain ⟨w, i, backend, asks, given, rfl⟩ := installed?_eq_some installed
  obtain ⟨fresh, -⟩ := allocate_unscripted numbered.unscripted given
  constructor
  · rw [← numbered.next]
    exact HardwareBuffer.raw_of_ofRaw? fresh.symm
  · rw [asked_perform, asks, List.length_append]
    rfl

/-- As long as the counter does not run over, no buffer is installed twice. -/
theorem Numbered.nodup (numbered : Numbered b) {steps : List BridgeStep}
    (few : (b.run steps).asked.length < 2 ^ 64 - 1) :
    ((b.installs steps).map Prod.snd).Nodup ∧
      ∀ p ∈ b.installs steps, b.asked.length < p.2.raw.toNat := by
  induction steps generalizing b with
  | nil => simp [installs]
  | cons s steps ih =>
    obtain ⟨nodup, above⟩ := ih (numbered.perform s) few
    have grows : b.asked.length ≤ (b.perform s).asked.length := (b.asked_run [s]).length_le
    have fits : (b.perform s).asked.length < 2 ^ 64 - 1 :=
      Nat.lt_of_le_of_lt ((b.perform s).asked_run steps).length_le few
    cases there : b.installed? s with
    | none =>
      rw [installs, there]
      exact ⟨nodup, fun p later => Nat.lt_of_le_of_lt grows (above p later)⟩
    | some p =>
      obtain ⟨raw, asked⟩ := numbered.installed there
      have small : p.2.raw.toNat = b.asked.length + 1 := by
        rw [raw, UInt64.toNat_ofNat_of_lt']
        change b.asked.length + 1 < 2 ^ 64
        omega
      rw [installs, there, Option.toList_some, List.singleton_append]
      constructor
      · rw [List.map_cons, List.nodup_cons]
        refine ⟨?_, nodup⟩
        intro again
        obtain ⟨q, later, same⟩ := List.mem_map.mp again
        have bound := above q later
        rw [same] at bound
        omega
      · intro q member
        rcases List.mem_cons.mp member with rfl | later
        · omega
        · exact Nat.lt_of_le_of_lt grows (above q later)

end Bridge

/-- A window that resolves to a buffer is there, and its drawable holds an image in it, which all
its windows share until another texture is put there. The backend is asked for one just when there
is none. -/
theorem surfaces_run (loopback : Loopback) (creates : Option (List Int64))
    (allocations : Option (List UInt64)) (steps : List BridgeStep) :
    let start : Bridge := { backend := { loopback, creates, allocations } }
    let b := start.run steps
    (∀ id x, (b.resolve id).1.buffer = some x →
      ∃ w, b.scene.window? id = some w ∧ (b.resolve id).1 = ⟨w.width, w.height, some x⟩ ∧
        (b.resolve id).2.Holds w.content x ∧
        ∀ later, (∀ t, .scene (.setTexture w.content t) ∉ later) →
          let c := (b.resolve id).2.run later
          c.Holds w.content x ∧
            ∀ id' w', c.scene.window? id' = some w' → w'.content = w.content →
              c.resolve id' = (⟨w'.width, w'.height, some x⟩, c)) ∧
    (∀ id, (b.resolve id).1.width = b.windowWidth id ∧
      (b.resolve id).1.height = b.windowHeight id) ∧
    (∀ s, (b.perform s).asked = b.asked ++ (b.wanted s).toList) ∧
    (∀ id, b.scene.window? id = none → (b.resolve id).1 = .empty) ∧
    (∀ id, (b.resolve id).1.buffer = none →
      (b.resolve id).2.scene = b.scene ∧ (b.resolve id).2.discarded = b.discarded) ∧
    (allocations = none → loopback.nextBuffer = 1 → b.asked.length < 2 ^ 64 - 1 →
      ((start.installs steps).map Prod.snd).Nodup) := by
  intro start b
  have anchored : b.whereabouts.Anchored := by
    apply Bridge.anchored_run
    intro d shown
    cases shown
  refine ⟨?_, b.resolve_size, b.asked_perform, ?_, ?_, ?_⟩
  · intro id x found
    obtain ⟨w, there, surface, held⟩ := Bridge.resolve_buffer anchored found
    refine ⟨w, there, surface, Bridge.holds_iff.mpr held, ?_⟩
    intro later others c
    have kept : c.buffer? w.content = some x := Bridge.buffer?_run held others
    refine ⟨Bridge.holds_iff.mpr kept, ?_⟩
    intro id' w' there' same
    exact Bridge.resolve_of_held there' (same ▸ kept)
  · intro id absent
    rw [Bridge.resolve, absent]
  · intro id nothing
    exact Bridge.resolve_nothing nothing
  · intro unscripted first few
    have numbered : start.Numbered := ⟨unscripted, first⟩
    exact (numbered.nodup few).1

/-- Windows of two sizes show one drawable: the second finds the image that the first has got, until
a plain texture is put back. With a script the first allocation fails, and the texture stays. -/
theorem surfaces_run_shared :
    let plain (id : UInt32) : Texture := .plain ⟨id, 4, 4⟩
    let steps : List BridgeStep :=
      [.scene (.addDrawable { width := 4, height := 4, texture := some (plain 1) }),
        .scene (.addDrawable { width := 4, height := 4 }), .scene (.addWindow ⟨1, 8, 8, 0⟩),
        .scene (.addWindow ⟨2, 16, 9, 0⟩), .scene (.addWindow ⟨3, 5, 5, 1⟩)]
    let later : List BridgeStep :=
      [.scene (.removeWindow 1), .scene (.setTexture 1 (plain 2)), .createContext 6 {},
        .scene (.resolve 3), .scene .runPending, .destroyTexture (plain 4)]
    let back : List BridgeStep := [.scene (.setTexture 0 (plain 3)), .scene (.resolve 2)]
    let start : Bridge := {}
    let b := start.run steps
    let c := (b.resolve 1).2.run later
    let scripted : Bridge := { backend := { allocations := some [0, 7] } }
    let f := scripted.run steps
    (b.resolve 1).1 = ⟨8, 8, HardwareBuffer.ofRaw? 1⟩ ∧
      c.resolve 2 = (⟨16, 9, HardwareBuffer.ofRaw? 1⟩, c) ∧
      (start.installs (steps ++ .scene (.resolve 1) :: later ++ back)).map
        (fun p => (p.1, p.2.raw)) = [(0, 1), (1, 2), (0, 3)] ∧
      ((start.installs (steps ++ .scene (.resolve 1) :: later ++ back)).map Prod.snd).Nodup ∧
      (f.resolve 1).1 = ⟨8, 8, none⟩ ∧ (f.resolve 1).2.scene = f.scene ∧
      (f.resolve 1).2.discarded = f.discarded ∧ (f.resolve 9).1 = .empty := by
  intro plain steps later back start b c scripted f
  obtain ⟨stable, -⟩ := surfaces_run {} none none steps
  obtain ⟨w, there, -, -, kept⟩ := stable 1 ⟨1, by decide⟩ (by decide +kernel)
  have shown : w = ⟨1, 8, 8, 0⟩ := Option.some.inj (there.symm.trans (by decide +kernel))
  obtain ⟨-, again⟩ := kept later (by simp [later, shown])
  obtain ⟨-, -, -, -, -, apart⟩ :=
    surfaces_run {} none none (steps ++ .scene (.resolve 1) :: later ++ back)
  obtain ⟨-, -, -, absent, failed, -⟩ := surfaces_run {} none (some [0, 7]) steps
  have nothing (id : UInt32) (none : (f.resolve id).1.buffer = none) :
      (f.resolve id).2.scene = f.scene ∧ (f.resolve id).2.discarded = f.discarded :=
    failed id none
  obtain ⟨scene, queue⟩ := nothing 1 (by decide +kernel)
  refine ⟨by decide +kernel, ?_, by decide +kernel, apart rfl rfl (by decide +kernel),
    by decide +kernel, scene, queue, absent 9 (by decide +kernel)⟩
  exact again 2 ⟨2, 16, 9, 0⟩ (by decide +kernel) (by rw [shown])

end RenderBroker
