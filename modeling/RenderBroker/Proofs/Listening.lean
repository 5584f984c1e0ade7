import RenderBroker.Proofs.Lookups
import RenderBroker.Server.Connector

namespace RenderBroker

namespace FileTree

/-- Every socket of the later files lay where it is in the earlier ones already. -/
def FewerSockets (t u : FileTree) : Prop :=
  ∀ l owner mode, u.node? l = some (.socket owner mode) → t.node? l = some (.socket owner mode)

namespace FewerSockets

variable {t u v : FileTree} {p : Path}

theorem refl (t : FileTree) : t.FewerSockets t :=
  fun _ _ _ here => here

theorem trans (first : t.FewerSockets u) (second : u.FewerSockets v) : t.FewerSockets v :=
  fun l owner mode here => first l owner mode (second l owner mode here)

theorem take (t : FileTree) (l : Location) : t.FewerSockets (t.take l) := by
  intro m owner mode here
  by_cases same : m = l
  · by_cases root : l = []
    · rw [same, root, node?_root] at here
      cases here
    · rw [same, t.node?_take_same root] at here
      cases here
  · rwa [t.node?_take_other same] at here

theorem putDirectory (t : FileTree) (l : Location) : t.FewerSockets (t.put l .directory) := by
  intro m owner mode here
  by_cases same : m = l
  · by_cases root : l = []
    · rw [same, root, node?_root] at here
      cases here
    · rw [same, t.node?_put_same root] at here
      cases here
  · rwa [t.node?_put_other _ same] at here

theorem remove (t : FileTree) (p : Path) : t.FewerSockets (t.orKeep (t.remove p)).2 := by
  cases h : t.remove p with
  | error f => exact .refl t
  | ok u =>
    rw [FileTree.remove] at h
    split at h
    · cases h
    · cases h
    · cases h
    · next l _ _ named =>
      split at h
      · cases h
      · cases h
        exact .take t l

theorem makeDirectory (h : t.makeDirectory p = .ok u) : t.FewerSockets u := by
  rw [FileTree.makeDirectory] at h
  split at h
  · cases h
  · cases h
  · cases h
    exact .putDirectory t _

theorem ensureDirectory (t : FileTree) (p : Path) : t.FewerSockets (t.ensureDirectory p).2 := by
  rw [FileTree.ensureDirectory]
  split
  · next h => exact .makeDirectory h
  · exact .refl t

theorem ensureAlong (t : FileTree) (ps : List Path) : t.FewerSockets (t.ensureAlong ps).2 := by
  induction ps generalizing t with
  | nil => exact .refl t
  | cons p above ih =>
    rw [FileTree.ensureAlong]
    split
    · exact .refl t
    · split
      · have before := ih t
        split
        · next u made =>
          rw [made] at before
          exact before.trans (.ensureDirectory u p)
        · exact before
      · exact .ensureDirectory t p

end FewerSockets

def SocketsUpTo (t : FileTree) (n : Nat) : Prop :=
  ∀ l owner mode, t.node? l = some (.socket owner mode) → owner ≤ n

theorem SocketsUpTo.fewer {t u : FileTree} {n : Nat} (known : t.SocketsUpTo n)
    (fewer : t.FewerSockets u) : u.SocketsUpTo n :=
  fun l owner mode here => known l owner mode (fewer l owner mode here)

/-- Nothing keeps a socket from a path: the directories above it are there or can be made, and then
nothing lies at its end, or a file or a socket, which gives way. -/
def Admits (t : FileTree) (p : Path) : Prop :=
  ∃ u l, t.ensureDirectories (p.parent?.getD ⟨[]⟩) = (.ok (), u) ∧ u.LeadsTo p l ∧
    (l.getLast?.getD []).length ≤ maxName

end FileTree

namespace Connector

variable {c : Connector} {obstacles : Obstacles} {t u : FileTree} {owner : Nat} {l : Location}

open FileTree (FewerSockets)

/-- A step leaves the files alone or changes them as it does where nothing is refused. -/
theorem take_of_change (c : Connector) (obstacles : Obstacles) (owner : Nat) (s : StartStep)
    {P : FileTree → Prop} (kept : P t) (changed : P (c.change owner t s).2) :
    P (c.take obstacles owner t s).2 := by
  rw [take]
  split
  · exact kept
  · split
    · exact kept
    · exact changed

theorem take_bind (obstacles : Obstacles) (owner : Nat) (t : FileTree) :
    (∃ e, c.take obstacles owner t .bind = (.error e, t)) ∨
    (c.path.bytes = [] ∧ c.take obstacles owner t .bind = (.ok (), t)) ∨
    ∃ l, t.LeadsTo c.path l ∧ t.node? l = none ∧
      c.take obstacles owner t .bind = (.ok (), t.put l (.socket owner 0o755)) := by
  rw [take, if_neg (by simp [needs])]
  cases obstacles .bind with
  | some f => exact .inl ⟨_, rfl⟩
  | none =>
    dsimp only [change]
    split
    · next empty => exact .inr (.inl ⟨empty, rfl⟩)
    · cases made : t.bind c.path owner with
      | error f => exact .inl ⟨_, rfl⟩
      | ok u =>
        obtain ⟨l, leads, vacant, rfl⟩ := FileTree.create_eq_ok made
        exact .inr (.inr ⟨l, leads, vacant, rfl⟩)

theorem takeAll_append (c : Connector) (obstacles : Obstacles) (owner : Nat) (t : FileTree)
    (xs ys : List StartStep) :
    c.takeAll obstacles owner t (xs ++ ys) =
      match c.takeAll obstacles owner t xs with
      | (.ok (), u) => c.takeAll obstacles owner u ys
      | (.error e, u) => (.error e, u) := by
  induction xs generalizing t with
  | nil => rfl
  | cons s xs ih =>
    rw [List.cons_append, takeAll, takeAll]
    cases c.take obstacles owner t s with
    | mk r u =>
      cases r with
      | error e => rfl
      | ok => exact ih u

/-- The path of the connector leads to a socket of its own, and but for this one there is no socket
that was not there before. -/
structure Placed (c : Connector) (owner : Nat) (t : FileTree) (mode : Nat) (u : FileTree)
    (l : Location) : Prop where
  leads : u.LeadsTo c.path l
  here : u.node? l = some (.socket owner mode)
  fewer : t.FewerSockets (u.take l)

namespace Placed

variable {mode : Nat}

theorem of_put (leads : u.LeadsTo c.path l) (before : t.FewerSockets (u.take l)) (mode : Nat) :
    c.Placed owner t mode (u.put l (.socket owner mode)) l where
  leads := .of_found leads.shut (leads.put (n := .socket owner mode) trivial false) trivial
  here := u.node?_put_same leads.inner _
  fewer m o k there := by
    by_cases same : m = l
    · rw [same, FileTree.node?_take_same _ leads.inner] at there
      cases there
    · rw [FileTree.node?_take_other _ same, FileTree.node?_put_other _ _ same] at there
      exact before m o k (by rwa [u.node?_take_other same])

theorem cleared (placed : c.Placed owner t mode u l) : c.cleared u = u.take l := by
  rw [Connector.cleared, placed.leads.remove placed.here]
  rfl

theorem take_setMode (placed : c.Placed owner t mode u l) (obstacles : Obstacles) :
    (∃ e, c.take obstacles owner u .setMode = (.error e, u)) ∨
    ∃ v, c.take obstacles owner u .setMode = (.ok (), v) ∧ c.Placed owner t 0o600 v l := by
  rw [take, if_neg (by simp [needs])]
  cases obstacles .setMode with
  | some f => exact .inl ⟨_, rfl⟩
  | none =>
    refine .inr ⟨_, ?_, of_put placed.leads placed.fewer 0o600⟩
    dsimp only [change]
    rw [placed.leads.setMode placed.here]
    rfl

end Placed

theorem fewer_takeAll (c : Connector) (obstacles : Obstacles) (owner : Nat) (t : FileTree) :
    t.FewerSockets (c.takeAll obstacles owner t [.makeDirectory, .removeStale]).2 := by
  have first := c.take_of_change obstacles owner .makeDirectory (P := t.FewerSockets) (.refl t)
    (.ensureAlong t c.directory.upward)
  rw [takeAll]
  split
  · next u made =>
    rw [made] at first
    have second := c.take_of_change obstacles owner .removeStale (P := u.FewerSockets) (.refl u)
      (.remove u c.path)
    rw [takeAll]
    split
    · next v removed =>
      rw [removed] at second
      exact first.trans second
    · next removed =>
      rw [removed] at second
      exact first.trans second
  · next made =>
    rw [made] at first
    exact first

theorem takeAll_binding (c : Connector) (obstacles : Obstacles) (owner : Nat) (t : FileTree) :
    (∃ e u, c.takeAll obstacles owner t bindingSteps = (.error e, u) ∧ t.FewerSockets u) ∨
    ∃ u, c.takeAll obstacles owner t bindingSteps = (.ok (), u) ∧
      (c.path.bytes = [] ∧ t.FewerSockets u ∨ ∃ l, c.Placed owner t 0o755 u l) := by
  have before := fewer_takeAll c obstacles owner t
  rw [bindingSteps, show [StartStep.makeDirectory, .removeStale, .bind] =
    [.makeDirectory, .removeStale] ++ [.bind] from rfl, takeAll_append]
  cases made : c.takeAll obstacles owner t [.makeDirectory, .removeStale] with
  | mk r u =>
    rw [made] at before
    cases r with
    | error e => exact .inl ⟨e, u, rfl, before⟩
    | ok =>
      dsimp only
      rcases take_bind (c := c) obstacles owner u with
        ⟨e, bound⟩ | ⟨empty, bound⟩ | ⟨l, leads, -, bound⟩
      · exact .inl ⟨e, u, by rw [takeAll, bound], before⟩
      · exact .inr ⟨u, by rw [takeAll, bound]; rfl, .inl ⟨empty, before⟩⟩
      · exact .inr ⟨_, by rw [takeAll, bound]; rfl,
          .inr ⟨l, .of_put leads (before.trans (.take u l)) 0o755⟩⟩

theorem files_takeAll {steps : List StartStep}
    (idle : ∀ s ∈ steps, ∀ t, c.change owner t s = (.ok (), t)) (t : FileTree) :
    (c.takeAll obstacles owner t steps).2 = t := by
  induction steps with
  | nil => rfl
  | cons s steps ih =>
    obtain ⟨here, rest⟩ := List.forall_mem_cons.mp idle
    have same := c.take_of_change obstacles owner s (P := (· = t)) rfl (by rw [here])
    rw [takeAll]
    split
    · next u taken =>
      rw [taken] at same
      rw [show u = t from same]
      exact ih rest
    · next taken =>
      rw [taken] at same
      exact same

theorem take_setMode_empty (empty : c.path.bytes = []) (obstacles : Obstacles) (owner : Nat)
    (t : FileTree) : ∃ e, c.take obstacles owner t .setMode = (.error e, t) := by
  rw [take, if_neg (by simp [needs])]
  cases obstacles .setMode with
  | some f => exact ⟨_, rfl⟩
  | none =>
    have nowhere : t.find true c.path = .error .notFound := by
      simp [FileTree.find, FileTree.faultOf?, Path.hasNull, empty]
    refine ⟨c.failure .setMode .notFound, ?_⟩
    dsimp only [change]
    rw [FileTree.setMode, nowhere]
    rfl

theorem files_takeAll_setting (c : Connector) (obstacles : Obstacles) (owner : Nat) (t : FileTree) :
    (c.takeAll obstacles owner t readyingSteps.tail).2 = t := by
  refine files_takeAll ?_ t
  intro s hs u
  simp only [readyingSteps, List.tail_cons, List.mem_cons, List.not_mem_nil, or_false] at hs
  rcases hs with rfl | rfl | rfl | rfl | rfl | rfl <;> rfl

/-- Listening either fails and adds no socket, or puts one at the path that only its owner can
use. -/
theorem listened (c : Connector) (obstacles : Obstacles) (t : FileTree) (owner : Nat) :
    (∃ e u, c.listen obstacles t owner = (.error e, u) ∧ t.FewerSockets u) ∨
    ∃ u l, c.listen obstacles t owner = (.ok (), u) ∧ c.Placed owner t 0o600 u l := by
  rw [listen]
  rcases takeAll_binding c obstacles owner t with ⟨e, u, bound, fewer⟩ | ⟨u, bound, placed⟩
  · rw [bound]
    exact .inl ⟨e, u, rfl, fewer⟩
  · rw [bound]
    dsimp only
    rw [readyingSteps, takeAll]
    -- the socket is bound from here on, and is taken away again if a step is refused
    rcases placed with ⟨empty, fewer⟩ | ⟨l, placed⟩
    · obtain ⟨e, refused⟩ := take_setMode_empty empty obstacles owner u
      rw [refused]
      exact .inl ⟨e, _, rfl, fewer.trans (.remove u c.path)⟩
    · rcases placed.take_setMode obstacles with ⟨e, refused⟩ | ⟨v, set, placed'⟩
      · rw [refused]
        exact .inl ⟨e, _, rfl, by rw [placed.cleared]; exact placed.fewer⟩
      · rw [set]
        dsimp only
        have same := files_takeAll_setting c obstacles owner v
        rw [readyingSteps, List.tail_cons] at same
        cases rest : c.takeAll obstacles owner v
            [.makeNonBlocking, .createPoller, .createWaker, .watchListener, .watchWaker,
              .spawn] with
        | mk r w =>
          rw [rest] at same
          obtain rfl : w = v := same
          cases r with
          | error e => exact .inl ⟨e, _, rfl, by rw [placed'.cleared]; exact placed'.fewer⟩
          | ok => exact .inr ⟨w, l, rfl, placed'⟩

inductive Started (c : Connector) (t : FileTree) (owner : Nat) : Start → Prop
  | already (running : c.running = true) : Started c t owner ⟨.ok false, c, t⟩
  | rejected (stopped : c.running = false) (none : c.inputCapacity = 0) :
      Started c t owner ⟨.error noCapacity, c, t⟩
  | failed {e : Failure} {u : FileTree} (stopped : c.running = false)
      (some : c.inputCapacity ≠ 0) (fewer : t.FewerSockets u) :
      Started c t owner ⟨.error e, c, u⟩
  | listening {u : FileTree} {l : Location} (stopped : c.running = false)
      (some : c.inputCapacity ≠ 0) (placed : c.Placed owner t 0o600 u l) :
      Started c t owner ⟨.ok true, { c with running := true }, u⟩

theorem started (c : Connector) (obstacles : Obstacles) (t : FileTree) (owner : Nat) :
    c.Started t owner (c.start obstacles t owner) := by
  rw [start]
  split
  · next running => exact .already running
  · next stopped =>
    have stopped : c.running = false := by simpa using stopped
    split
    · next none => exact .rejected stopped none
    · next some =>
      rcases c.listened obstacles t owner with ⟨e, u, failed, fewer⟩ | ⟨u, l, made, placed⟩
      · rw [failed]
        exact .failed stopped some fewer
      · rw [made]
        exact .listening stopped some placed

theorem take_ok {s : StartStep} (changed : c.change owner t s = (.ok (), u))
    (idle : c.needs t s = false → u = t) : c.take .none owner t s = (.ok (), u) := by
  rw [take]
  split
  · next skipped => rw [idle (by simpa using skipped)]
  · rw [Obstacles.none, changed]
    rfl

theorem take_makeDirectory (made : t.ensureDirectories c.directory = (.ok (), u)) :
    c.take .none owner t .makeDirectory = (.ok (), u) := by
  refine take_ok made ?_
  intro rootless
  have none : c.path.parent? = Option.none := by simpa [needs] using rootless
  rw [directory, none] at made
  cases made
  rfl

theorem take_removeStale (leads : t.LeadsTo c.path l)
    (short : (l.getLast?.getD []).length ≤ FileTree.maxName) (owner : Nat) :
    ∃ u, c.take .none owner t .removeStale = (.ok (), u) ∧ u.LeadsTo c.path l ∧
      u.node? l = none := by
  cases here : t.node? l with
  | none =>
    have free : t.holds c.path = false := by
      rw [FileTree.holds, leads.follow?_eq_node?, here]
      rfl
    exact ⟨t, by rw [take, if_pos (by simp [needs, free])], leads, here⟩
  | some n =>
    have held : t.holds c.path = true := by
      rw [FileTree.holds, leads.follow?_eq_node?, here]
      rfl
    have removed : c.change owner t .removeStale = (.ok (), t.take l) := by
      rw [change, leads.remove here]
      rfl
    exact ⟨t.take l, take_ok removed (by simp [needs, held]), leads.after_take short,
      t.node?_take_same leads.inner⟩

theorem bound_of_admits (admits : t.Admits c.path) (owner : Nat) :
    ∃ u l, c.takeAll .none owner t bindingSteps = (.ok (), u) ∧ c.Placed owner t 0o755 u l := by
  obtain ⟨made, l, ensured, leads, short⟩ := admits
  obtain ⟨free, removed, leads, vacant⟩ := take_removeStale leads short owner
  have bind : c.take .none owner free .bind =
      (.ok (), free.put l (.socket owner 0o755)) := by
    refine take_ok ?_ (by simp [needs])
    rw [change, if_neg leads.bytes_ne_nil, FileTree.bind, leads.create vacant]
    rfl
  have all : c.takeAll .none owner t bindingSteps =
      (.ok (), free.put l (.socket owner 0o755)) := by
    simp only [bindingSteps, takeAll, take_makeDirectory ensured, removed, bind]
  rcases takeAll_binding c .none owner t with ⟨e, u, failed, -⟩ | ⟨u, bound, empty | placed⟩
  · rw [all] at failed
    cases failed
  · exact absurd empty.1 leads.bytes_ne_nil
  · obtain ⟨m, placed⟩ := placed
    exact ⟨u, m, bound, placed⟩

/-- Where nothing is in the way, the connector starts to listen. -/
theorem listen_of_admits (admits : t.Admits c.path) (owner : Nat) :
    ∃ u, c.listen .none t owner = (.ok (), u) := by
  obtain ⟨u, l, bound, placed⟩ := bound_of_admits admits owner
  have set : c.take .none owner u .setMode = (.ok (), u.put l (.socket owner 0o600)) := by
    refine take_ok ?_ (by simp [needs])
    rw [change, placed.leads.setMode placed.here]
    rfl
  refine ⟨u.put l (.socket owner 0o600), ?_⟩
  rw [listen, bound]
  dsimp only
  rw [readyingSteps, takeAll, set]
  rfl

end Connector
end RenderBroker
