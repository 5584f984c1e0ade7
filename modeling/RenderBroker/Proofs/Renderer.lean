import RenderBroker.Proofs.Steps
import RenderBroker.Server.Renderer

namespace RenderBroker

theorem Bridge.callsSince_eq {b w : Bridge} (cs : List BackendCall)
    (calls : w.backend.calls = cs ++ b.backend.calls) : w.callsSince b = cs.reverse := by
  simp [callsSince, calls]

theorem Backend.calls_createContext (b : Backend) (fd : Descriptor) (o : RenderOptions) :
    (b.createContext fd o).2.calls = .create fd o (b.createContext fd o).1 :: b.calls := by
  rw [createContext]
  split <;> rfl

theorem Backend.calls_destroyContext (b : Backend) (h : ContextHandle) :
    (b.destroyContext h).2.calls = .destroy h :: b.calls := by
  rw [destroyContext]
  split <;> rfl

theorem Bridge.calls_createContext (b : Bridge) (fd : Descriptor) (o : RenderOptions) :
    ∃ raw, (b.createContext fd o).1 = ContextHandle.ofRaw? raw ∧
      (b.createContext fd o).2.backend.calls = .create fd o raw :: b.backend.calls :=
  ⟨(b.backend.createContext fd o).1, rfl, b.backend.calls_createContext fd o⟩

theorem Bridge.calls_destroyContext (b : Bridge) (h : ContextHandle) :
    (b.destroyContext h).backend.calls = .destroy h :: b.backend.calls :=
  b.backend.calls_destroyContext h

theorem Client.createStreams_eq {τ : Type} {b c : Client τ} (created : c.createStreams = .ok b) :
    b = { c with input := b.input, output := b.output } := by
  obtain ⟨_, _, -, -, rfl⟩ := of_createStreams created
  rfl

namespace Renderer

variable {o : RenderOptions} {b b' : Bridge} {c back : RenderClient} {code : UInt8}

/-- What a callback does: it leaves the backend alone, or it asks it for a context on account of a
byte that was read. -/
inductive Reaction (o : RenderOptions) (b : Bridge) (c : RenderClient) (code : Option UInt8)
    (b' : Bridge) (back : RenderClient) : Prop
  | passed (nothing : code = some 1 → c.tag ≠ none)
      (calls : b'.backend.calls = b.backend.calls) (tag : back.tag = c.tag)
      (killed : back.killed = c.killed)
  | asked (raw : Int64) (asks : code = some 1) (empty : c.tag = none)
      (calls : b'.backend.calls = .create c.descriptor o raw :: b.backend.calls)
      (tag : back.tag = ContextHandle.ofRaw? raw)
      (killed : back.killed = (c.killed || (ContextHandle.ofRaw? raw).isNone))

theorem Reaction.congr {c' back' : RenderClient} {code : Option UInt8}
    (reaction : Reaction o b c code b' back) (before : c'.standing = c.standing)
    (tag : back'.tag = back.tag) (killed : back'.killed = back.killed) :
    Reaction o b c' code b' back' := by
  have owned : c'.tag = c.tag := congrArg Standing.tag before
  have marked : c'.killed = c.killed := congrArg Standing.killed before
  have same : c'.descriptor = c.descriptor := congrArg Standing.descriptor before
  cases reaction with
  | passed nothing calls tag' killed' =>
    exact .passed (owned ▸ nothing) calls (by rw [tag, tag', owned])
      (by rw [killed, killed', marked])
  | asked raw asks empty calls tag' killed' =>
    exact .asked raw asks (owned.trans empty) (same ▸ calls) (tag.trans tag')
      (by rw [killed, killed', marked])

theorem reaction_createContext (o : RenderOptions) (b : Bridge) (c : RenderClient) :
    Reaction o b c (some 1) (createContext o b c).1 (createContext o b c).2 := by
  rw [createContext]
  cases owned : c.tag with
  | some h => exact .passed (by simp [owned]) rfl rfl rfl
  | none =>
    obtain ⟨raw, result, calls⟩ := b.calls_createContext c.descriptor o
    rcases created : b.createContext c.descriptor o with ⟨h?, w⟩
    simp only [created] at result calls
    cases h? with
    | some h => exact .asked raw rfl owned calls result (by simp [← result])
    | none =>
      exact .asked raw rfl owned calls (owned.trans result) (by simp [← result, Client.kill])

theorem reaction_perform (o : RenderOptions) (b : Bridge) (c : RenderClient) (code : UInt8) :
    Reaction o b c (some code) (perform o b c code).1 (perform o b c code).2 := by
  unfold perform RenderRequest.ofCode?
  by_cases asks : code = 1
  · rw [if_pos asks, asks]
    exact reaction_createContext o b c
  · rw [if_neg asks]
    exact .passed (by simp [asks]) rfl rfl rfl

theorem output_perform (o : RenderOptions) (b : Bridge) (c : RenderClient) (code : UInt8) :
    (perform o b c code).2.output = c.output := by
  unfold perform createContext
  split
  · split
    · rfl
    · split <;> rfl
  · rfl

theorem request_idle {s : InputStream} (there : c.input = some s) (empty : s.available = 0) :
    (handler o).request b c = (.idle, b, c) := by
  have read : s.readByte = .error (.short 1 s.available) := if_pos (by omega)
  change request o b c = _
  simp only [request, there, read]

theorem reaction_request {e : RequestEnd} (asked : (handler o).request b c = (e, b', back)) :
    ∃ code, Reaction o b c code b' back := by
  change request o b c = _ at asked
  rw [request] at asked
  split at asked
  · cases asked
    exact ⟨none, .passed (by simp) rfl rfl rfl⟩
  · split at asked
    · cases asked
      exact ⟨none, .passed (by simp) rfl rfl rfl⟩
    · next s _ code t _ =>
      obtain ⟨-, performed⟩ := Prod.mk.inj asked
      have reaction := reaction_perform o b { c with input := some t } code
      rw [performed] at reaction
      exact ⟨some code, reaction.congr rfl rfl rfl⟩

theorem calls_release (b : Bridge) (c : RenderClient) :
    (release b c).backend.calls = (c.tag.map .destroy).toList ++ b.backend.calls := by
  rw [release]
  split
  · next h owned =>
    rw [owned]
    exact b.calls_destroyContext h
  · next owned => rw [owned]; rfl

theorem opened_eq (asked : (handler o).opened b c = some (b', back)) :
    b' = b ∧ back = { c with input := back.input, output := back.output } := by
  change (c.createStreams.toOption.map fun c => (b, c)) = _ at asked
  cases created : c.createStreams with
  | error breach =>
    rw [created] at asked
    cases asked
  | ok d =>
    rw [created] at asked
    cases asked
    exact ⟨rfl, Client.createStreams_eq created⟩

/-- The renderer gives a new client a buffer for one request, and nothing else. -/
theorem opened_guest (o : RenderOptions) (b : Bridge) (n : Nat) (d : Descriptor) :
    (handler o).opened b ((handler o).guest inputCapacity outputCapacity n d) =
      some (b, { (handler o).guest inputCapacity outputCapacity n d with
        input := some (.ofCapacity 1) }) :=
  rfl

theorem calm (o : RenderOptions) : (handler o).Calm inputCapacity outputCapacity := by
  refine ⟨?_, ?_⟩
  · intro b n d
    rw [opened_guest]
    simp
  · intro b c
    change (request o b c).1 ≠ .panicked
    rw [request]
    split
    · simp
    · split <;> simp

end Renderer

end RenderBroker
