import Mathlib.Data.List.Nodup
import RenderBroker.Proofs.Callbacks
import RenderBroker.Proofs.Listening
import RenderBroker.Server.Host
import RenderBroker.Server.Script

namespace RenderBroker

variable {τ ω : Type}

namespace EventLoop

variable {h : Handler τ ω} {l m : EventLoop τ ω}

def Distinct (l : EventLoop τ ω) : Prop :=
  (l.clients.map Client.descriptor).Nodup

theorem Distinct.of_eq (distinct : l.Distinct) (same : m.clients = l.clients) : m.Distinct := by
  rwa [Distinct, same]

theorem Distinct.of_alone (alone : l.clients = []) : l.Distinct := by
  rw [Distinct, alone]
  exact List.nodup_nil

theorem Distinct.erase (distinct : l.Distinct) (d : Descriptor) : (l.erase d).Distinct :=
  distinct.sublist (List.filter_sublist.map _)

theorem Distinct.insert (distinct : l.Distinct) (c : Client τ) : (l.insert c).Distinct := by
  rw [Distinct, EventLoop.insert, List.map_append, List.nodup_append]
  refine ⟨distinct.erase c.descriptor, by simp, ?_⟩
  intro d hd e he
  obtain ⟨b, hb, rfl⟩ := List.mem_map.mp hd
  rw [List.mem_singleton.mp he]
  exact (mem_erase.mp hb).2

theorem Distinct.update (distinct : l.Distinct) (c : Client τ) : (l.update c).Distinct := by
  have same : (l.update c).clients.map Client.descriptor = l.clients.map Client.descriptor := by
    rw [EventLoop.update, List.map_map]
    refine List.map_congr_left fun b _ => ?_
    rw [Function.comp_apply]
    split
    · next here => exact here.symm
    · rfl
  rwa [Distinct, same]

theorem Distinct.crash (l : EventLoop τ ω) : l.crash.Distinct :=
  .of_alone rfl

theorem Distinct.tearDown (distinct : l.Distinct) (d : Descriptor) (resumed : Bool) :
    (l.tearDown h d resumed).Distinct :=
  (distinct.erase d).of_eq (clients_tearDown h l d resumed)

theorem Distinct.register (distinct : l.Distinct) (d : Descriptor) (setUp watched : Bool) :
    (l.register h d setUp watched).Distinct := by
  rw [EventLoop.register]
  dsimp only
  split
  · split
    · exact .crash _
    · exact Distinct.insert (distinct.of_eq rfl) _
  · exact distinct.of_eq rfl

theorem Distinct.accept (distinct : l.Distinct) (results : List AcceptResult) :
    (l.accept h results).Distinct := by
  induction results generalizing l with
  | nil => exact distinct
  | cons r results ih =>
    cases r with
    | connection d setUp watched =>
      have first := distinct.register (h := h) d setUp watched
      rw [EventLoop.accept]
      split
      · exact first
      · exact ih first
    | interrupted => exact ih distinct
    | exhausted paused => exact distinct.of_eq (alike_pause l paused).clients
    | failed => exact distinct

theorem Distinct.serveClient (distinct : l.Distinct) (e : Event) :
    (l.serveClient h e).Distinct := by
  cases found : l.client? e.descriptor with
  | none =>
    rw [serveClient_of_none found]
    exact distinct
  | some c =>
    obtain ⟨⟨v, s⟩, served⟩ : ∃ r, Session.serve h ⟨l.world, c, []⟩ e.flags e.read e.writes = r :=
      ⟨_, rfl⟩
    rw [serveClient_eq found served]
    have absorbed : (l.absorb s).Distinct := (distinct.update s.client).of_eq rfl
    cases v with
    | keep => exact absorbed.of_eq (alike_updateInterest ..).clients
    | tearDown => exact absorbed.tearDown ..
    | crash => exact .crash _

theorem Distinct.handle (distinct : l.Distinct) (e : Event) : (l.handle h e).Distinct := by
  rw [EventLoop.handle]
  split
  · exact distinct
  · split
    · exact distinct.accept e.accepts
    · exact distinct.serveClient e

theorem Distinct.handleAll (distinct : l.Distinct) (batch : List Event) :
    (l.handleAll h batch).Distinct := by
  induction batch generalizing l with
  | nil => exact distinct
  | cons e batch ih => exact ih (distinct.handle e)

theorem Distinct.round (distinct : l.Distinct) (batch : List Event) (resumed : Bool) :
    (l.round h batch resumed).Distinct := by
  rw [EventLoop.round]
  split
  · exact distinct.of_eq (alike_resume l resumed).clients
  · exact distinct.handleAll batch

theorem Distinct.client?_eq (distinct : l.Distinct) {c : Client τ} (member : c ∈ l.clients) :
    l.client? c.descriptor = some c := by
  cases found : l.client? c.descriptor with
  | none => exact absurd rfl (client?_eq_none.mp found c member)
  | some b =>
    obtain ⟨hb, same⟩ := client?_eq_some found
    rw [List.inj_on_of_nodup_map distinct hb member same]

theorem history_tearDowns {o : Occurrence τ ω} (ds : List Descriptor)
    (resumed : Descriptor → Bool) (noted : o ∈ l.history) :
    o ∈ (ds.foldl (fun l d => l.tearDown h d (resumed d)) l).history := by
  induction ds generalizing l with
  | nil => exact noted
  | cons d ds ih =>
    refine ih (l := l.tearDown h d (resumed d)) ?_
    cases found : l.client? d with
    | none =>
      rw [tearDown]
      rw [found]
      exact noted
    | some c =>
      rw [(alike_tearDown (h := h) found (resumed d)).history]
      exact List.mem_cons_of_mem _ noted

theorem closed_of_tearDowns {c : Client τ} {ds : List Descriptor} {resumed : Descriptor → Bool}
    (distinct : l.Distinct) (member : c ∈ l.clients) (due : c.descriptor ∈ ds) :
    ∃ w, .closed ⟨w, c⟩ (h.closed w c) ∈
      (ds.foldl (fun l d => l.tearDown h d (resumed d)) l).history := by
  induction ds generalizing l with
  | nil => cases due
  | cons d ds ih =>
    by_cases here : d = c.descriptor
    · have found : l.client? d = some c := here ▸ distinct.client?_eq member
      have noted : (l.tearDown h d (resumed d)).history =
          .closed ⟨l.world, c⟩ (h.closed l.world c) :: l.history :=
        (alike_tearDown found (resumed d)).history
      refine ⟨l.world, history_tearDowns (l := l.tearDown h d (resumed d)) ds resumed ?_⟩
      rw [noted]
      exact List.mem_cons_self
    · have left : c ∈ (l.tearDown h d (resumed d)).clients := by
        rw [clients_tearDown]
        exact mem_erase.mpr ⟨member, Ne.symm here⟩
      exact ih (distinct.tearDown d (resumed d)) left
        ((List.mem_cons.mp due).resolve_left (Ne.symm here))

end EventLoop

/-- What can happen to a host: a call on its server, or something between two calls. -/
inductive HostCall where
  | start (obstacles : Obstacles)
  | stop (clearing : Clearing)
  /-- The server goes out of scope. -/
  | drop (clearing : Clearing)
  | setInput (n : Nat)
  | setOutput (n : Nat)
  /-- The loop goes through one wait, if it runs. -/
  | advance (batch : List Event)
  /-- A wait of the loop fails, and the loop ends. -/
  | fail (clearing : Clearing)
  /-- Others change the files. -/
  | others (files : FileTree)

namespace Host

variable {h g k : Host τ ω}

def call (h : Host τ ω) : HostCall → Host τ ω
  | .start obstacles => (h.start obstacles).2
  | .stop clearing | .drop clearing => h.stop clearing
  | .setInput n => { h with connector := { h.connector with inputCapacity := n } }
  | .setOutput n => { h with connector := { h.connector with outputCapacity := n } }
  | .advance batch => if h.looping then h.advance batch else h
  | .fail clearing =>
    if h.looping then (h.follow (h.loop.shutdownAll h.handler clearing)).deserted else h
  | .others files => { h with files }

def callAll (h : Host τ ω) (calls : List HostCall) : Host τ ω :=
  calls.foldl call h

/-- Others leave alone what the path of the server names, and make no file of a socket that has a
number above `n`. -/
def Undisturbed (n : Nat) : Host τ ω → List HostCall → Prop
  | _, [] => True
  | h, c :: calls =>
    (∀ files, c = .others files →
      files.look? h.connector.path = h.files.look? h.connector.path ∧
      ∀ l owner mode, n < owner → files.node? l = some (.socket owner mode) →
        h.files.node? l = some (.socket owner mode)) ∧
    Undisturbed n (h.call c) calls

/-- The server has not been started: it has no clients, and no socket has a number still to
come. -/
structure AtRest (h : Host τ ω) : Prop where
  stopped : h.connector.running = false
  alone : h.loop.clients = []
  known : h.files.SocketsUpTo h.owner

/-- No socket has a number above `n`, but for the one of a server that runs: that is the latest one,
and lies at its path. -/
structure Kept (n : Nat) (h : Host τ ω) : Prop where
  distinct : h.loop.Distinct
  stopped : h.connector.running = false → h.files.SocketsUpTo n
  running : h.connector.running = true →
    ∃ l, h.files.LeadsTo h.connector.path l ∧
      h.files.node? l = some (.socket h.owner 0o600) ∧ (h.files.take l).SocketsUpTo n

theorem reachable_of_placed {c : Connector} {t : FileTree} {owner : Nat} {l : Location}
    (placed : c.Placed owner t 0o600 h.files l) (path : h.connector.path = c.path)
    (latest : h.owner = owner) (looping : h.looping = true) : h.reachable = true := by
  simp [reachable, looping, latest, path, placed.leads.follow?_eq_node?, placed.here]

inductive Started (h : Host τ ω) : Except Failure Bool × Host τ ω → Prop
  | already (running : h.connector.running = true) : Started h (.ok false, h)
  | rejected (stopped : h.connector.running = false) (none : h.connector.inputCapacity = 0) :
      Started h (.error Connector.noCapacity, h)
  | failed {e : Failure} {u : FileTree} (stopped : h.connector.running = false)
      (some : h.connector.inputCapacity ≠ 0) (fewer : h.files.FewerSockets u) :
      Started h (.error e, { h with files := u })
  | listening {u : FileTree} {l : Location} {loop : EventLoop τ ω}
      (stopped : h.connector.running = false) (some : h.connector.inputCapacity ≠ 0)
      (alone : loop.clients = []) (placed : h.connector.Placed (h.owner + 1) h.files 0o600 u l) :
      Started h (.ok true, { h with
        connector := { h.connector with running := true }
        files := u
        loop
        looping := true
        owner := h.owner + 1 })

theorem started (h : Host τ ω) (obstacles : Obstacles) : h.Started (h.start obstacles) := by
  have s := h.connector.started obstacles h.files (h.owner + 1)
  rw [start]
  generalize h.connector.start obstacles h.files (h.owner + 1) = start at s
  cases s with
  | already running => exact .already running
  | rejected stopped none => exact .rejected stopped none
  | failed stopped some fewer => exact .failed stopped some fewer
  | listening stopped some placed => exact .listening stopped some rfl placed

theorem Kept.serve {n : Nat} (kept : h.Kept n) (distinct : k.loop.Distinct)
    (path : k.connector.path = h.connector.path)
    (running : k.connector.running = h.connector.running) (files : k.files = h.files)
    (owner : k.owner = h.owner) : k.Kept n := by
  refine ⟨distinct, ?_, ?_⟩
  · rw [running, files]
    exact kept.stopped
  · rw [path, running, files, owner]
    exact kept.running

theorem Kept.start {n : Nat} (kept : h.Kept n) (obstacles : Obstacles) :
    (h.start obstacles).2.Kept n := by
  have s := h.started obstacles
  generalize h.start obstacles = start at s
  cases s with
  | already => exact kept
  | rejected => exact kept
  | failed stopped some fewer =>
    refine ⟨kept.distinct, ?_, ?_⟩
    · exact fun _ => (kept.stopped stopped).fewer fewer
    · intro running
      rw [stopped] at running
      cases running
  | listening stopped _ alone placed =>
    refine ⟨.of_alone alone, ?_, ?_⟩
    · nofun
    · intro _
      exact ⟨_, placed.leads, placed.here, (kept.stopped stopped).fewer placed.fewer⟩

theorem Kept.stop_eq {n : Nat} (kept : h.Kept n) (running : h.connector.running = true)
    (clearing : Clearing) :
    ∃ l, h.files.LeadsTo h.connector.path l ∧ (h.files.take l).SocketsUpTo n ∧
      h.stop clearing =
        { (h.follow (h.loop.shutdownAll h.handler clearing)).deserted with
          connector := { h.connector with running := false }
          files := h.files.take l } := by
  obtain ⟨l, leads, here, rest⟩ := kept.running running
  refine ⟨l, leads, rest, ?_⟩
  rw [Host.stop, if_pos running, Connector.stop, if_pos running, Connector.cleared,
    leads.remove here]
  rfl

theorem Kept.stop {n : Nat} (kept : h.Kept n) (clearing : Clearing) :
    (h.stop clearing).Kept n := by
  cases running : h.connector.running with
  | false =>
    rw [Host.stop, if_neg (by simp [running])]
    exact kept
  | true =>
    obtain ⟨l, -, rest, stopped⟩ := kept.stop_eq running clearing
    rw [stopped]
    refine ⟨.of_alone (EventLoop.clients_shutdownAll ..), fun _ => rest, ?_⟩
    nofun

/-- What the path names stays, so it leads to the server's socket still; and if that has a number
above `n`, then no other file is this socket. -/
theorem Kept.others {n : Nat} {files : FileTree} (kept : h.Kept n)
    (path : files.look? h.connector.path = h.files.look? h.connector.path)
    (added : ∀ l owner mode, n < owner → files.node? l = some (.socket owner mode) →
      h.files.node? l = some (.socket owner mode)) : Kept n { h with files } := by
  refine ⟨kept.distinct, ?_, ?_⟩
  · intro stopped l owner mode here
    by_contra above
    exact above (kept.stopped stopped l owner mode (added l owner mode (by omega) here))
  · intro running
    obtain ⟨l, leads, here, rest⟩ := kept.running running
    have named : files.look? h.connector.path = some (.socket h.owner 0o600) := by
      rw [path, leads.look?_eq_node?, here]
    obtain ⟨m, leads', here'⟩ := FileTree.leadsTo_of_look? leads.shut named trivial
    -- where a socket above `n` lies, it lay before, so the server's socket has not moved
    have at_path {k : Location} {owner mode : Nat} (above : n < owner)
        (there : files.node? k = some (.socket owner mode)) : k = l := by
      by_contra other
      have there := added k owner mode above there
      rw [← h.files.node?_take_other other] at there
      exact Nat.not_le.mpr above (rest k owner mode there)
    refine ⟨m, leads', here', ?_⟩
    intro k owner mode there
    by_contra above
    have above := Nat.not_le.mp above
    by_cases end_ : k = m
    · rw [end_, FileTree.node?_take_same _ leads'.inner] at there
      cases there
    · rw [FileTree.node?_take_other _ end_] at there
      have here_ := at_path above there
      have same : owner = h.owner := by
        have before := added k owner mode above there
        rw [here_, here] at before
        cases before
        rfl
      exact end_ (here_.trans (at_path (same ▸ above) here').symm)

theorem Kept.call {n : Nat} (kept : h.Kept n) (c : HostCall)
    (apart : ∀ files, c = .others files →
      files.look? h.connector.path = h.files.look? h.connector.path ∧
      ∀ l owner mode, n < owner → files.node? l = some (.socket owner mode) →
        h.files.node? l = some (.socket owner mode)) : (h.call c).Kept n := by
  cases c with
  | start obstacles => exact kept.start obstacles
  | stop clearing | drop clearing => exact kept.stop clearing
  | setInput | setOutput => exact kept.serve kept.distinct rfl rfl rfl rfl
  | advance batch =>
    rw [Host.call]
    split
    · have served : (h.loop.round h.handler batch true).Distinct := kept.distinct.round batch true
      rw [Host.advance]
      split
      · exact kept.serve (served.of_eq rfl) rfl rfl rfl rfl
      · exact kept.serve (served.of_eq rfl) rfl rfl rfl rfl
    · exact kept
  | fail clearing =>
    rw [Host.call]
    split
    · exact kept.serve (.of_alone (EventLoop.clients_shutdownAll ..)) rfl rfl rfl rfl
    · exact kept
  | others files => exact kept.others (apart files rfl).1 (apart files rfl).2

theorem Kept.callAll {n : Nat} {calls : List HostCall} (kept : h.Kept n)
    (apart : h.Undisturbed n calls) : (h.callAll calls).Kept n := by
  induction calls generalizing h with
  | nil => exact kept
  | cons c calls ih => exact ih (kept.call c apart.1) apart.2

theorem AtRest.kept {n : Nat} (rest : h.AtRest) (known : h.owner ≤ n) : h.Kept n where
  distinct := .of_alone rest.alone
  stopped _ l owner mode here := Nat.le_trans (rest.known l owner mode here) known
  running := by
    intro running
    rw [rest.stopped] at running
    cases running

/-- Whatever calls were made before and whatever step is refused, a start that fails adds no socket,
one that succeeds leaves a new one at its path for its owner alone, and a stop leaves no client and
nothing at the path. -/
theorem lifecycle_run {n : Nat} (rest : h.AtRest) (known : h.owner ≤ n) (calls : List HostCall)
    (apart : h.Undisturbed n calls) (after : h.callAll calls = g) (obstacles : Obstacles) :
    (g.connector.running = true →
      g.files.look? g.connector.path = some (.socket g.owner 0o600) ∧
      g.start obstacles = (.ok false, g)) ∧
    (g.connector.running = false → g.connector.inputCapacity = 0 →
      g.start obstacles = (.error Connector.noCapacity, g)) ∧
    (∀ e k, g.start obstacles = (.error e, k) →
      k.connector.running = false ∧ k = { g with files := k.files } ∧
      g.files.FewerSockets k.files ∧ k.files.SocketsUpTo n) ∧
    (∀ k, g.start obstacles = (.ok true, k) →
      k.connector = { g.connector with running := true } ∧ k.reachable = true ∧
      k.owner = g.owner + 1 ∧ k.files.look? k.connector.path = some (.socket k.owner 0o600)) ∧
    (∀ clearing, g.connector.running = true →
      let k := g.stop clearing
      k.connector = { g.connector with running := false } ∧ k.looping = false ∧
      k.loop.clients = [] ∧ (∀ link ∈ k.links, link.served = false) ∧
      (∀ c ∈ g.loop.clients, ∃ w, .closed ⟨w, c⟩ (g.handler.closed w c) ∈
        (g.loop.shutdownAll g.handler clearing).history) ∧
      k.files.look? g.connector.path = none ∧ k.files.holds g.connector.path = false) ∧
    (g.connector.running = false → ∀ clearing, g.stop clearing = g) := by
  have kept : g.Kept n := after ▸ (rest.kept known).callAll apart
  have s := g.started obstacles
  generalize g.start obstacles = start at s
  refine ⟨?_, ?_, ?_, ?_, ?_, ?_⟩
  · intro running
    obtain ⟨l, leads, here, -⟩ := kept.running running
    refine ⟨leads.look?_eq_node?.trans here, ?_⟩
    cases s with
    | already => rfl
    | rejected stopped | failed stopped | listening stopped =>
      exact absurd running (by simp [stopped])
  · intro stopped none
    cases s with
    | already running => exact absurd running (by simp [stopped])
    | rejected => rfl
    | failed _ some => exact absurd none some
    | listening _ some => exact absurd none some
  · intro e k failed
    cases s with
    | already | listening => cases failed
    | rejected stopped =>
      cases failed
      exact ⟨stopped, rfl, .refl g.files, kept.stopped stopped⟩
    | failed stopped _ fewer =>
      cases failed
      exact ⟨stopped, rfl, fewer, (kept.stopped stopped).fewer fewer⟩
  · intro k made
    cases s with
    | already | rejected | failed => cases made
    | listening _ _ _ placed =>
      cases made
      exact ⟨rfl, reachable_of_placed placed rfl rfl rfl, rfl,
        placed.leads.look?_eq_node?.trans placed.here⟩
  · intro clearing running k
    obtain ⟨l, leads, -, stopped⟩ := kept.stop_eq running clearing
    rw [show k = _ from stopped]
    refine ⟨rfl, rfl, EventLoop.clients_shutdownAll .., ?_, ?_, leads.look?_take, leads.holds_take⟩
    · intro k hk
      obtain ⟨b, -, rfl⟩ := List.mem_map.mp hk
      rfl
    · intro c member
      exact EventLoop.closed_of_tearDowns kept.distinct member
        ((clearing.perm _).mem_iff.mpr (List.mem_map_of_mem member))
  · intro stopped clearing
    rw [Host.stop, if_neg (by simp [stopped])]

/-- The socket of a server that is gone lies at the path; later the input streams are to have no
size, and others give the new socket a second name. -/
theorem lifecycle_run_stale :
    let k : Script := { frame := 1, frame_pos := Nat.one_pos, action := fun _ => .proceed }
    let files : FileTree :=
      ⟨[([[0x73]], .directory), ([[0x73], [0x56]], .socket 0 0o755)]⟩
    let h : Host (List UInt8) ScriptLog := .create k.handler { path := .ofString "s/V" } files {}
    let calls : List HostCall :=
      [.start .none, .advance [{ descriptor := 3, accepts := [.connection 6 true true] }],
        .setInput 0]
    let linked := (h.callAll calls).files.put [[0x73], [0x4C]] (.socket 1 0o600)
    let g := h.callAll (calls ++ [.others linked])
    h.files.look? h.connector.path = some (.socket 0 0o755) ∧
      g.connector = { path := .ofString "s/V", inputCapacity := 0, running := true } ∧
      g.loop.clients.map Client.descriptor = [6] ∧
      g.files.look? g.connector.path = some (.socket 1 0o600) ∧
      g.start .none = (.ok false, g) ∧ g.stop.loop.clients = [] ∧
      g.stop.files.look? g.connector.path = none := by
  intro k files h calls linked g
  have running : g.connector.running = true := by decide +kernel
  have rest : h.AtRest := by
    refine ⟨rfl, rfl, ?_⟩
    intro l owner mode here
    simp only [h, create, files, FileTree.node?, List.lookup_cons, List.lookup_nil] at here
    split at here
    · cases here
    · split at here
      · cases here
      · split at here
        · cases here
          exact Nat.le_refl 0
        · cases here
  have apart : h.Undisturbed 1 (calls ++ [.others linked]) := by
    refine ⟨by simp, by simp, by simp, ?_, trivial⟩
    rintro _ ⟨⟩
    refine ⟨by decide +kernel, ?_⟩
    intro l owner mode above here
    by_cases named : l = [[0x73], [0x4C]]
    · rw [named, FileTree.node?_put_same _ (by simp)] at here
      cases here
      exact absurd above (Nat.lt_irrefl 1)
    · rwa [FileTree.node?_put_other _ _ named] at here
  obtain ⟨started, -, -, -, stopped, -⟩ :=
    lifecycle_run rest (Nat.zero_le 1) _ apart (rfl : _ = g) .none
  obtain ⟨-, -, alone, -, -, gone, -⟩ := stopped {} running
  exact ⟨by decide +kernel, by decide +kernel, by decide +kernel, by decide +kernel,
    (started running).2, alone, gone⟩

end Host

end RenderBroker
