import Mathlib.Algebra.Order.Group.Multiset
import Mathlib.Data.List.ReduceOption
import Mathlib.Tactic.Abel
import RenderBroker.Render.Bridge

namespace RenderBroker

namespace BackendCall

def allocated? : BackendCall → Option Texture
  | .allocate width height buffer => buffer.map fun buffer => .image ⟨width, height, buffer⟩
  | _ => none

def destroyedTexture? : BackendCall → Option Texture
  | .destroyTexture t => some t
  | _ => none

end BackendCall

def RenderNotice.leaked? : RenderNotice → Option Texture
  | .textureLeaked _ t => some t
  | _ => none

/-- Where textures are, and what the backend did with textures so far; all in order. -/
@[ext]
structure Whereabouts where
  /-- The drawables that windows show. -/
  shown : List DrawableId
  slots : List (Option Texture)
  /-- Those that wait for the render side. -/
  waiting : Channel Texture
  /-- Those that nobody received on the render side, of which a warning was given. -/
  leaked : List Texture
  allocated : List Texture
  destroyed : List Texture

namespace Whereabouts

/-- Every window shows a drawable that is there. -/
def Anchored (w : Whereabouts) : Prop :=
  ∀ d ∈ w.shown, d < w.slots.length

def place (w : Whereabouts) (d : DrawableId) (t : Texture) : Whereabouts :=
  { w with slots := w.slots.set d (some t) }

/-- The texture that has left a slot, if any, waits for the render side, or is lost. -/
def discard (w : Whereabouts) : Option Texture → Whereabouts
  | none => w
  | some t =>
    { w with
      waiting := (w.waiting.send t).2
      leaked := if w.waiting.received then w.leaked else w.leaked ++ [t] }

def allocate (w : Whereabouts) (i : Option GpuImage) : Whereabouts :=
  { w with allocated := w.allocated ++ (i.map Texture.image).toList }

def install (w : Whereabouts) (d : DrawableId) (i : GpuImage) : Whereabouts :=
  (w.place d (.image i)).discard w.slots[d]?.join

theorem shown_discard (w : Whereabouts) (old : Option Texture) :
    (w.discard old).shown = w.shown := by
  cases old <;> rfl

theorem slots_discard (w : Whereabouts) (old : Option Texture) :
    (w.discard old).slots = w.slots := by
  cases old <;> rfl

theorem allocated_discard (w : Whereabouts) (old : Option Texture) :
    (w.discard old).allocated = w.allocated := by
  cases old <;> rfl

theorem destroyed_discard (w : Whereabouts) (old : Option Texture) :
    (w.discard old).destroyed = w.destroyed := by
  cases old <;> rfl

end Whereabouts

theorem Backend.allocate_eq {b backend : Backend} {width height : UInt16} {i : Option GpuImage}
    (given : b.allocate width height = (i, backend)) :
    ∃ buffer, i = buffer.map (fun buffer => ⟨width, height, buffer⟩) ∧
      backend.calls = .allocate width height buffer :: b.calls := by
  rw [allocate] at given
  split at given
  · cases given
    exact ⟨_, rfl, rfl⟩
  · cases given
    exact ⟨_, rfl, rfl⟩

namespace Bridge

def slots (b : Bridge) : List (Option Texture) :=
  b.scene.drawables.map Drawable.texture

def whereabouts (b : Bridge) : Whereabouts where
  shown := b.scene.windows.map Window.content
  slots := b.slots
  waiting := b.discarded
  leaked := b.notices.reverse.filterMap RenderNotice.leaked?
  allocated := b.backend.calls.reverse.filterMap BackendCall.allocated?
  destroyed := b.backend.calls.reverse.filterMap BackendCall.destroyedTexture?

variable (b : Bridge)

theorem whereabouts_tell {n : RenderNotice} (other : n.leaked? = none) :
    (b.tell n).whereabouts = b.whereabouts := by
  simp [whereabouts, slots, tell, other]

theorem textures_modify (drawables : List Drawable) (d : DrawableId) {f : Drawable → Drawable}
    {g : Option Texture → Option Texture} (hf : ∀ x, (f x).texture = g x.texture) :
    (drawables.modify d f).map Drawable.texture = (drawables.map Drawable.texture).modify d g := by
  apply List.ext_getElem?
  intro i
  rw [List.getElem?_map, List.getElem?_modify, List.getElem?_modify, List.getElem?_map]
  cases drawables[i]? with
  | none => rfl
  | some x =>
    by_cases here : d = i
    · simp [here, hf]
    · simp [here]

theorem slots_setTexture (d : DrawableId) (t : Texture) :
    (b.setTexture d t).2.slots = b.slots.set d (some t) := by
  rw [List.set_eq_modify]
  exact textures_modify _ d fun _ => rfl

theorem whereabouts_setTexture (d : DrawableId) (t : Texture) :
    (b.setTexture d t).2.whereabouts = b.whereabouts.place d t :=
  Whereabouts.ext rfl (b.slots_setTexture d t) rfl rfl rfl rfl

theorem fst_setTexture (d : DrawableId) (t : Texture) :
    (b.setTexture d t).1 = b.slots[d]?.join := by
  simp only [setTexture, Scene.setTexture, Scene.drawable?, slots, List.getElem?_map]
  cases b.scene.drawables[d]? <;> rfl

theorem whereabouts_refresh (id : UInt32) : (b.refresh id).whereabouts = b.whereabouts := by
  rw [refresh]
  split
  · exact b.whereabouts_tell rfl
  · next w _ =>
    have same : (b.redraw w.content).slots = b.slots :=
      (textures_modify b.scene.drawables w.content (f := Drawable.update) (g := fun t => t)
        fun _ => rfl).trans (List.modify_id _ _)
    exact Whereabouts.ext rfl same rfl rfl rfl rfl

theorem whereabouts_discard (id : UInt32) (t : Texture) :
    (b.discard id t).whereabouts = b.whereabouts.discard (some t) := by
  rw [discard]
  cases taken : b.discarded.received with
  | true => simp [whereabouts, slots, Whereabouts.discard, taken]
  | false =>
    have lost : [RenderNotice.taskDropped, .textureLeaked id t].filterMap RenderNotice.leaked? =
        [t] := rfl
    simp [whereabouts, slots, tell, Whereabouts.discard, taken, lost]

theorem whereabouts_install (w : Window) (i : GpuImage) :
    (b.install w i).whereabouts = b.whereabouts.install w.content i := by
  have old := b.fst_setTexture w.content (.image i)
  rw [Whereabouts.install, ← whereabouts_setTexture]
  change _ = Whereabouts.discard _ b.slots[w.content]?.join
  rw [← old, setTexture, install]
  dsimp only
  cases (b.scene.setTexture w.content (.image i)).1 with
  | none => rfl
  | some t =>
    dsimp only
    rw [whereabouts_discard, whereabouts_tell _ rfl]

theorem buffer?_eq (d : DrawableId) :
    b.buffer? d = (b.slots[d]?.join.bind Texture.image?).map GpuImage.buffer := by
  rw [buffer?, Scene.drawable?, slots, List.getElem?_map]
  cases b.scene.drawables[d]? with
  | none => rfl
  | some drawable =>
    rw [Option.bind_some, Drawable.buffer?, Option.map_some, Option.join_some]
    cases drawable.texture <;> rfl

theorem whereabouts_allocate (width height : UInt16) {i : Option GpuImage} {backend : Backend}
    (given : b.backend.allocate width height = (i, backend)) :
    { b with backend }.whereabouts = b.whereabouts.allocate i := by
  obtain ⟨buffer, rfl, calls⟩ := Backend.allocate_eq given
  cases buffer with
  | none =>
    simp [whereabouts, slots, calls, Whereabouts.allocate, BackendCall.allocated?,
      BackendCall.destroyedTexture?]
  | some buffer =>
    have one : [BackendCall.allocate width height (some buffer)].filterMap BackendCall.allocated? =
        [.image ⟨width, height, buffer⟩] := rfl
    simp [whereabouts, slots, calls, Whereabouts.allocate, one, BackendCall.destroyedTexture?]

/-- Resolving a window touches no texture, or puts a new image into a slot that has none; what was
in that slot is sent to the render side. -/
theorem whereabouts_resolve (anchored : b.whereabouts.Anchored) (id : UInt32) :
    (b.resolve id).2.whereabouts = b.whereabouts ∨
      ∃ (d : DrawableId) (i : GpuImage) (old : Option Texture),
        b.slots[d]? = some old ∧ old.bind Texture.image? = none ∧
        (b.resolve id).2.whereabouts = (b.whereabouts.allocate i).install d i := by
  rw [resolve]
  cases found : b.scene.window? id with
  | none => exact .inl (b.whereabouts_tell rfl)
  | some w =>
    have there : w.content < b.slots.length :=
      anchored _ (List.mem_map_of_mem (List.mem_of_find?_eq_some found))
    obtain ⟨old, slot⟩ : ∃ old, b.slots[w.content]? = some old :=
      ⟨_, List.getElem?_eq_getElem there⟩
    dsimp only
    rw [surfaceOf]
    cases buffer : b.buffer? w.content with
    | some buffer => exact .inl rfl
    | none =>
      have imageless : old.bind Texture.image? = none := by
        rw [buffer?_eq, slot, Option.join_some, Option.map_eq_none_iff] at buffer
        exact buffer
      dsimp only
      rw [provide]
      rcases given : b.backend.allocate w.width w.height with ⟨_ | i, backend⟩
      · left
        refine (whereabouts_tell _ rfl).trans ((b.whereabouts_allocate _ _ given).trans ?_)
        simp [Whereabouts.allocate]
      · right
        refine ⟨w.content, i, old, slot, imageless, ?_⟩
        rw [← b.whereabouts_allocate _ _ given]
        exact whereabouts_install _ w i

theorem whereabouts_destroyTextures (ts : List Texture) :
    (ts.foldl destroyTexture b).whereabouts =
      { b.whereabouts with destroyed := b.whereabouts.destroyed ++ ts } := by
  induction ts generalizing b with
  | nil => simp
  | cons t ts ih =>
    have one : [BackendCall.destroyTexture t].filterMap BackendCall.destroyedTexture? = [t] := rfl
    have first : (b.destroyTexture t).whereabouts =
        { b.whereabouts with destroyed := b.whereabouts.destroyed ++ [t] } := by
      simp [whereabouts, slots, destroyTexture, tell, Backend.destroyTexture, Backend.record, one,
        BackendCall.allocated?, RenderNotice.leaked?]
    rw [List.foldl_cons, ih, first]
    simp

theorem whereabouts_runPending :
    b.runPending.2.whereabouts =
      { b.whereabouts with
        waiting := { b.discarded with items := [] }
        destroyed := b.whereabouts.destroyed ++ b.discarded.items } :=
  whereabouts_destroyTextures _ b.discarded.items

theorem shown_removeWindow {d : DrawableId} (id : UInt32)
    (left : d ∈ (b.scene.removeWindow id).windows.map Window.content) :
    d ∈ b.whereabouts.shown := by
  obtain ⟨w, hw, rfl⟩ := List.mem_map.mp left
  exact List.mem_map_of_mem (List.mem_filter.mp hw).1

end Bridge

/-- What is done with a bridge and its scene, but for textures that somebody has outside and destroys
through the bridge. -/
inductive TextureStep where
  /-- A window is resolved, for its surface or for its raw buffer alone. -/
  | resolve (id : UInt32)
  | refresh (id : UInt32)
  | setTexture (d : DrawableId) (t : Texture)
  | addDrawable (drawable : Drawable)
  | addWindow (w : Window)
  | removeWindow (id : UInt32)
  | runPending
  | dropReceiver
  deriving DecidableEq

/-- The textures that are in their slots before and not after, in the order of the drawables. -/
def displaced (before after : List (Option Texture)) : List Texture :=
  (before.zip after).filterMap fun s => if s.1 = s.2 then none else s.1

/-- What became of the textures of a bridge so far. -/
structure Ledger where
  /-- Those that came into a slot from outside. -/
  brought : List Texture := []
  /-- Those that somebody who changed a slot got out of it. -/
  handedBack : List Texture := []
  /-- Those that resolving took out of a slot, in order. -/
  taken : List Texture := []
  /-- Those that waited when the receiving end was let go. -/
  dropped : List Texture := []

structure Custody where
  bridge : Bridge
  ledger : Ledger := {}

/-- A step that names a drawable that is not there comes to nothing. -/
def Custody.perform (k : Custody) : TextureStep → Custody
  | .resolve id =>
    let bridge := (k.bridge.resolve id).2
    let gone := displaced k.bridge.slots bridge.slots
    ⟨bridge, { k.ledger with taken := k.ledger.taken ++ gone }⟩
  | .refresh id => { k with bridge := k.bridge.refresh id }
  | .setTexture d t =>
    if d < k.bridge.slots.length then
      let (old, bridge) := k.bridge.setTexture d t
      ⟨bridge, { k.ledger with
        brought := k.ledger.brought ++ [t]
        handedBack := k.ledger.handedBack ++ old.toList }⟩
    else k
  | .addDrawable drawable =>
    ⟨{ k.bridge with scene := (k.bridge.scene.addDrawable drawable).2 },
      { k.ledger with brought := k.ledger.brought ++ drawable.texture.toList }⟩
  | .addWindow w =>
    if w.content < k.bridge.slots.length then
      { k with bridge := { k.bridge with scene := k.bridge.scene.addWindow w } }
    else k
  | .removeWindow id =>
    { k with bridge := { k.bridge with scene := k.bridge.scene.removeWindow id } }
  | .runPending => { k with bridge := k.bridge.runPending.2 }
  | .dropReceiver =>
    ⟨k.bridge.dropReceiver,
      { k.ledger with dropped := k.ledger.dropped ++ k.bridge.discarded.items }⟩

def Custody.run (k : Custody) (steps : List TextureStep) : Custody :=
  steps.foldl Custody.perform k

def inSlots (slots : List (Option Texture)) : Multiset Texture :=
  ↑slots.reduceOption

/-- What resolving took has been destroyed, waits, or is lost, in this order. Nothing is lost as long
as somebody receives, and nothing waits when nobody does. -/
structure Traced (g : Ledger) (w : Whereabouts) : Prop where
  taken : g.taken = w.destroyed ++ w.waiting.items ++ (g.dropped ++ w.leaked)
  safe : w.waiting.received = true → g.dropped = [] ∧ w.leaked = []
  closed : w.waiting.received = false → w.waiting.items = []

/-- Every texture that came in or was allocated is in a slot, was handed back or was taken, and only
textures that are no images were taken. -/
structure Accounted (g : Ledger) (w : Whereabouts) : Prop where
  anchored : w.Anchored
  traced : Traced g w
  conserved : (g.brought : Multiset Texture) + w.allocated =
    inSlots w.slots + g.handedBack + g.taken
  plain : ∀ t ∈ g.taken, t.image? = none
  images : ∀ t ∈ w.allocated, t.image? ≠ none

theorem displaced_cons (s t : Option Texture) (before after : List (Option Texture)) :
    displaced (s :: before) (t :: after) =
      (if s = t then none else s).toList ++ displaced before after := by
  simp only [displaced, List.zip_cons_cons, List.filterMap_cons]
  cases if s = t then none else s <;> rfl

theorem displaced_self (slots : List (Option Texture)) : displaced slots slots = [] := by
  induction slots with
  | nil => rfl
  | cons s slots ih => rw [displaced_cons, if_pos rfl, ih, Option.toList_none, List.nil_append]

theorem displaced_set {slots : List (Option Texture)} {d : DrawableId} {old : Option Texture}
    {t : Texture} (slot : slots[d]? = some old) (other : old ≠ some t) :
    displaced slots (slots.set d (some t)) = old.toList := by
  induction slots generalizing d with
  | nil => cases slot
  | cons s slots ih =>
    cases d with
    | zero =>
      cases slot
      rw [List.set_cons_zero, displaced_cons, if_neg other, displaced_self, List.append_nil]
    | succ d =>
      rw [List.set_cons_succ, displaced_cons, if_pos rfl, Option.toList_none, List.nil_append]
      exact ih slot

theorem inSlots_cons (s : Option Texture) (slots : List (Option Texture)) :
    inSlots (s :: slots) = ↑s.toList + inSlots slots := by
  cases s <;> simp [inSlots, List.reduceOption]

theorem inSlots_set {slots : List (Option Texture)} {d : DrawableId} {old : Option Texture}
    (new : Option Texture) (slot : slots[d]? = some old) :
    inSlots (slots.set d new) + ↑old.toList = inSlots slots + ↑new.toList := by
  induction slots generalizing d with
  | nil => cases slot
  | cons s slots ih =>
    cases d with
    | zero =>
      cases slot
      rw [List.set_cons_zero, inSlots_cons, inSlots_cons]
      abel
    | succ d =>
      rw [List.set_cons_succ, inSlots_cons, inSlots_cons, add_assoc, ih slot, add_assoc]

variable {g : Ledger} {w : Whereabouts}

theorem Traced.discard (traced : Traced g w) (old : Option Texture) :
    Traced { g with taken := g.taken ++ old.toList } (w.discard old) := by
  obtain ⟨taken, safe, closed⟩ := traced
  cases old with
  | none => exact ⟨by simpa [Whereabouts.discard] using taken, safe, closed⟩
  | some t =>
    cases received : w.waiting.received with
    | true =>
      obtain ⟨dropped, leaked⟩ := safe received
      constructor
      · simp [Whereabouts.discard, Channel.items_send, received, taken, dropped, leaked]
      · simp [Whereabouts.discard, received, dropped, leaked]
      · simp [Whereabouts.discard, received]
    | false =>
      have items := closed received
      constructor
      · simp [Whereabouts.discard, Channel.items_send, received, taken, items]
      · simp [Whereabouts.discard, received]
      · simp [Whereabouts.discard, Channel.items_send, received, items]

theorem Accounted.install (a : Accounted g w) {d : DrawableId} {old : Option Texture}
    (i : GpuImage) (slot : w.slots[d]? = some old) (imageless : old.bind Texture.image? = none) :
    Accounted { g with taken := g.taken ++ old.toList } ((w.allocate i).install d i) := by
  have there : (w.allocate i).slots[d]?.join = old := by
    rw [show (w.allocate i).slots = w.slots from rfl, slot, Option.join_some]
  have swapped := inSlots_set (some (.image i)) slot
  have traced : Traced g ((w.allocate i).place d (.image i)) :=
    ⟨a.traced.taken, a.traced.safe, a.traced.closed⟩
  rw [Whereabouts.install, there]
  refine ⟨?_, traced.discard old, ?_, ?_, ?_⟩
  · intro e he
    rw [Whereabouts.shown_discard] at he
    rw [Whereabouts.slots_discard]
    exact (a.anchored e he).trans_eq List.length_set.symm
  · rw [Whereabouts.slots_discard, Whereabouts.allocated_discard]
    change (g.brought : Multiset Texture) + ↑(w.allocated ++ [Texture.image i]) =
      inSlots (w.slots.set d (some (.image i))) + g.handedBack + ↑(g.taken ++ old.toList)
    calc (g.brought : Multiset Texture) + ↑(w.allocated ++ [Texture.image i])
        = g.brought + w.allocated + ↑(some (Texture.image i)).toList := by
          rw [← Multiset.coe_add, add_assoc]
          rfl
      _ = inSlots w.slots + ↑(some (Texture.image i)).toList + g.handedBack + g.taken := by
          rw [a.conserved]
          abel
      _ = inSlots (w.slots.set d (some (.image i))) + g.handedBack + (g.taken + old.toList) := by
          rw [← swapped]
          abel
      _ = inSlots (w.slots.set d (some (.image i))) + g.handedBack + ↑(g.taken ++ old.toList) := by
          rw [Multiset.coe_add]
  · intro t ht
    rcases List.mem_append.mp ht with ht | ht
    · exact a.plain t ht
    · rw [Option.mem_toList.mp ht] at imageless
      exact imageless
  · intro t ht
    rw [Whereabouts.allocated_discard] at ht
    rcases List.mem_append.mp ht with ht | ht
    · exact a.images t ht
    · cases List.mem_singleton.mp ht
      simp [Texture.image?]

theorem Accounted.place (a : Accounted g w) {d : DrawableId} {old : Option Texture} (t : Texture)
    (slot : w.slots[d]? = some old) :
    Accounted { g with
      brought := g.brought ++ [t]
      handedBack := g.handedBack ++ old.toList } (w.place d t) := by
  have swapped := inSlots_set (some t) slot
  refine ⟨?_, ⟨a.traced.taken, a.traced.safe, a.traced.closed⟩, ?_, a.plain, a.images⟩
  · intro e he
    exact (a.anchored e he).trans_eq List.length_set.symm
  · change (↑(g.brought ++ [t]) : Multiset Texture) + w.allocated =
      inSlots (w.slots.set d (some t)) + ↑(g.handedBack ++ old.toList) + g.taken
    calc (↑(g.brought ++ [t]) : Multiset Texture) + w.allocated
        = g.brought + w.allocated + ↑(some t).toList := by
          rw [← Multiset.coe_add, Option.toList_some]
          abel
      _ = inSlots w.slots + ↑(some t).toList + g.handedBack + g.taken := by
          rw [a.conserved]
          abel
      _ = inSlots (w.slots.set d (some t)) + (g.handedBack + old.toList) + g.taken := by
          rw [← swapped]
          abel
      _ = inSlots (w.slots.set d (some t)) + ↑(g.handedBack ++ old.toList) + g.taken := by
          rw [Multiset.coe_add]

theorem Accounted.grow (a : Accounted g w) (s : Option Texture) :
    Accounted { g with brought := g.brought ++ s.toList } { w with slots := w.slots ++ [s] } := by
  have appended : inSlots (w.slots ++ [s]) = inSlots w.slots + ↑s.toList := by
    simp only [inSlots, List.reduceOption_append, ← Multiset.coe_add]
    cases s <;> rfl
  refine ⟨?_, ⟨a.traced.taken, a.traced.safe, a.traced.closed⟩, ?_, a.plain, a.images⟩
  · intro d hd
    rw [List.length_append]
    exact Nat.lt_add_right _ (a.anchored d hd)
  · change (↑(g.brought ++ s.toList) : Multiset Texture) + w.allocated =
      inSlots (w.slots ++ [s]) + g.handedBack + g.taken
    rw [appended, ← Multiset.coe_add, add_right_comm, a.conserved]
    abel

theorem Accounted.show (a : Accounted g w) {shown : List DrawableId}
    (there : ∀ d ∈ shown, d < w.slots.length) : Accounted g { w with shown } :=
  ⟨there, ⟨a.traced.taken, a.traced.safe, a.traced.closed⟩, a.conserved, a.plain, a.images⟩

theorem Accounted.destroy (a : Accounted g w) :
    Accounted g { w with
      waiting := { w.waiting with items := [] }
      destroyed := w.destroyed ++ w.waiting.items } := by
  refine ⟨a.anchored, ⟨?_, a.traced.safe, fun _ => rfl⟩, a.conserved, a.plain, a.images⟩
  rw [List.append_nil]
  exact a.traced.taken

theorem Accounted.close (a : Accounted g w) :
    Accounted { g with dropped := g.dropped ++ w.waiting.items }
      { w with waiting := w.waiting.close } := by
  refine ⟨a.anchored, ⟨?_, ?_, fun _ => rfl⟩, a.conserved, a.plain, a.images⟩
  · change g.taken = w.destroyed ++ [] ++ ((g.dropped ++ w.waiting.items) ++ w.leaked)
    rw [a.traced.taken]
    -- nothing was lost before, or nothing waited
    cases received : w.waiting.received with
    | true =>
      obtain ⟨dropped, leaked⟩ := a.traced.safe received
      simp [dropped, leaked]
    | false => simp [a.traced.closed received]
  · intro received
    cases received

/-- Resolving a window takes at most the texture that an image replaces. -/
theorem Accounted.resolve {b : Bridge} (a : Accounted g b.whereabouts) (id : UInt32) :
    Accounted { g with taken := g.taken ++ displaced b.slots (b.resolve id).2.slots }
      (b.resolve id).2.whereabouts := by
  rcases b.whereabouts_resolve a.anchored id with same | ⟨d, i, old, slot, imageless, new⟩
  · have slots : (b.resolve id).2.slots = b.slots := congrArg Whereabouts.slots same
    rw [slots, displaced_self, List.append_nil, same]
    exact a
  · have slots : (b.resolve id).2.slots = b.slots.set d (some (.image i)) :=
      (congrArg Whereabouts.slots new).trans (Whereabouts.slots_discard ..)
    have other : old ≠ some (.image i) := by
      rintro rfl
      cases imageless
    rw [slots, displaced_set slot other, new]
    exact a.install i slot imageless

namespace Custody

variable {k : Custody}

theorem accounted_perform (a : Accounted k.ledger k.bridge.whereabouts) (s : TextureStep) :
    Accounted (k.perform s).ledger (k.perform s).bridge.whereabouts := by
  cases s with
  | resolve id => exact a.resolve id
  | refresh id =>
    change Accounted k.ledger (k.bridge.refresh id).whereabouts
    rw [Bridge.whereabouts_refresh]
    exact a
  | setTexture d t =>
    rw [perform]
    split
    · next there =>
      have slot := List.getElem?_eq_getElem there
      have old : (k.bridge.setTexture d t).1 = k.bridge.slots[d] := by
        rw [Bridge.fst_setTexture, slot, Option.join_some]
      have placed := a.place t slot
      rw [← Bridge.whereabouts_setTexture, ← old] at placed
      exact placed
    · exact a
  | addDrawable drawable =>
    have grown : (k.perform (.addDrawable drawable)).bridge.whereabouts =
        { k.bridge.whereabouts with slots := k.bridge.slots ++ [drawable.texture] } :=
      Whereabouts.ext rfl (List.map_append ..) rfl rfl rfl rfl
    rw [grown]
    exact a.grow drawable.texture
  | addWindow w =>
    rw [perform]
    split
    · next there =>
      apply a.show
      intro d hd
      rcases List.mem_cons.mp hd with rfl | hd
      · exact there
      · exact a.anchored d (k.bridge.shown_removeWindow w.id hd)
    · exact a
  | removeWindow id =>
    exact a.show fun d hd => a.anchored d (k.bridge.shown_removeWindow id hd)
  | runPending =>
    change Accounted k.ledger k.bridge.runPending.2.whereabouts
    rw [Bridge.whereabouts_runPending]
    exact a.destroy
  | dropReceiver => exact a.close

theorem accounted_run (a : Accounted k.ledger k.bridge.whereabouts) (steps : List TextureStep) :
    Accounted (k.run steps).ledger (k.run steps).bridge.whereabouts := by
  induction steps generalizing k with
  | nil => exact a
  | cons s steps ih => exact ih (accounted_perform a s)

theorem taken_perform (k : Custody) (s : TextureStep) :
    k.ledger.taken <+: (k.perform s).ledger.taken := by
  cases s with
  | resolve id => exact List.prefix_append ..
  | setTexture d t =>
    rw [perform]
    split <;> exact List.prefix_refl _
  | addWindow w =>
    rw [perform]
    split <;> exact List.prefix_refl _
  | _ => exact List.prefix_refl _

theorem destroyed_perform (a : Accounted k.ledger k.bridge.whereabouts) {s : TextureStep}
    (other : s ≠ .runPending) :
    (k.perform s).bridge.whereabouts.destroyed = k.bridge.whereabouts.destroyed := by
  cases s with
  | resolve id =>
    change (k.bridge.resolve id).2.whereabouts.destroyed = _
    rcases k.bridge.whereabouts_resolve a.anchored id with same | ⟨d, i, old, -, -, new⟩
    · rw [same]
    · rw [new, Whereabouts.install]
      exact Whereabouts.destroyed_discard ..
  | refresh id => exact congrArg Whereabouts.destroyed (k.bridge.whereabouts_refresh id)
  | setTexture d t =>
    rw [perform]
    split <;> rfl
  | addWindow w =>
    rw [perform]
    split <;> rfl
  | runPending => exact absurd rfl other
  | _ => rfl

end Custody

theorem Accounted.distinct (a : Accounted g w)
    (own : (g.brought.filter fun t => t.image? = none).Nodup) :
    g.taken.Nodup ∧ ∀ t ∈ g.taken, some t ∉ w.slots := by
  let plain (t : Texture) : Prop := t.image? = none
  have nothing : Multiset.filter plain w.allocated = 0 :=
    Multiset.filter_eq_nil.mpr fun t ht => a.images t ht
  have all : Multiset.filter plain g.taken = g.taken :=
    Multiset.filter_eq_self.mpr fun t ht => a.plain t ht
  have split := congrArg (Multiset.filter plain) a.conserved
  rw [Multiset.filter_add, Multiset.filter_add, Multiset.filter_add, nothing, all, add_zero]
    at split
  have nodup : (Multiset.filter plain ↑g.brought).Nodup := by
    rw [Multiset.filter_coe, Multiset.coe_nodup]
    exact own
  rw [split] at nodup
  obtain ⟨-, taken, apart⟩ := Multiset.nodup_add.mp nodup
  refine ⟨Multiset.coe_nodup.mp taken, ?_⟩
  intro t ht there
  have inside : t ∈ inSlots w.slots := List.reduceOption_mem_iff.mpr there
  have counted : t ∈ Multiset.filter plain (inSlots w.slots) :=
    Multiset.mem_filter.mpr ⟨inside, a.plain t ht⟩
  exact Multiset.disjoint_left.mp apart (Multiset.mem_add.mpr (.inl counted)) ht

/-- Every texture that resolving takes out of a slot is destroyed by the render side, waits for it,
or is lost after the receiving end was let go, in the order taken. Equal ones are accounted for each
for itself. -/
theorem textures_run (loopback : Loopback) (creates : Option (List Int64))
    (allocations : Option (List UInt64)) (steps : List TextureStep) :
    let start : Custody := { bridge := { backend := { loopback, creates, allocations } } }
    let k := start.run steps
    let g := k.ledger
    let w := k.bridge.whereabouts
    g.taken = w.destroyed ++ w.waiting.items ++ (g.dropped ++ w.leaked) ∧
    (w.waiting.received = true → g.dropped = [] ∧ w.leaked = []) ∧
    (w.waiting.received = false → w.waiting.items = []) ∧
    (g.brought : Multiset Texture) + w.allocated = inSlots w.slots + g.handedBack + g.taken ∧
    (∀ t ∈ g.taken, t.image? = none) ∧
    ((g.brought.filter fun t => t.image? = none).Nodup → ∀ t ∈ g.taken,
      w.destroyed.count t + w.waiting.items.count t + (g.dropped ++ w.leaked).count t = 1 ∧
        some t ∉ w.slots) ∧
    ∀ s, g.taken <+: (k.perform s).ledger.taken ∧
      (k.perform s).bridge.whereabouts.destroyed =
        w.destroyed ++ if s = .runPending then w.waiting.items else [] := by
  intro start k g w
  have begins : Accounted start.ledger start.bridge.whereabouts := by
    refine ⟨?_, ⟨rfl, fun _ => ⟨rfl, rfl⟩, fun _ => rfl⟩, rfl, ?_, ?_⟩ <;> intro t ht <;> cases ht
  have a : Accounted g w := Custody.accounted_run begins steps
  refine ⟨a.traced.taken, a.traced.safe, a.traced.closed, a.conserved, a.plain, ?_, ?_⟩
  · intro own t ht
    obtain ⟨once, apart⟩ := a.distinct own
    refine ⟨?_, apart t ht⟩
    rw [← List.count_append, ← List.count_append, ← a.traced.taken]
    exact List.count_eq_one_of_mem once ht
  · intro s
    refine ⟨k.taken_perform s, ?_⟩
    split
    · next pending =>
      rw [pending]
      exact congrArg Whereabouts.destroyed k.bridge.whereabouts_runPending
    · next other =>
      rw [List.append_nil]
      exact Custody.destroyed_perform a other

/-- Two windows each get a texture of one drawable replaced. The first texture is destroyed, two
wait when the receiving end is let go, and the last one finds nobody. -/
theorem textures_run_everywhere :
    let plain (id : UInt32) : Texture := .plain ⟨id, 4, 4⟩
    let steps : List TextureStep :=
      [.addDrawable { width := 4, height := 4, texture := some (plain 1) },
        .addDrawable { width := 4, height := 4, texture := some (plain 2) },
        .addDrawable { width := 4, height := 4, texture := some (plain 3) },
        .addWindow ⟨1, 8, 8, 0⟩, .addWindow ⟨2, 8, 8, 0⟩, .addWindow ⟨3, 8, 8, 1⟩,
        .addWindow ⟨4, 8, 8, 2⟩, .resolve 1, .runPending, .resolve 2, .setTexture 0 (plain 4),
        .resolve 3, .removeWindow 1, .resolve 2, .resolve 3, .refresh 2, .dropReceiver,
        .resolve 4]
    let start : Custody := { bridge := { backend := { allocations := some [7, 0, 8, 9, 10] } } }
    let k := start.run steps
    let w := k.bridge.whereabouts
    k.ledger.taken = [plain 1, plain 4, plain 2, plain 3] ∧ w.destroyed = [plain 1] ∧
      k.ledger.dropped = [plain 4, plain 2] ∧ w.leaked = [plain 3] ∧
      ∀ t ∈ k.ledger.taken, w.destroyed.count t + w.waiting.items.count t +
        (k.ledger.dropped ++ w.leaked).count t = 1 ∧ some t ∉ w.slots := by
  refine ⟨by decide +kernel, by decide +kernel, by decide +kernel, by decide +kernel, ?_⟩
  exact (textures_run {} none (some [7, 0, 8, 9, 10]) _).2.2.2.2.2.1 (by decide +kernel)

end RenderBroker
