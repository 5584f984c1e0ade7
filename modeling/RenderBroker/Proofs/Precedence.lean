import RenderBroker.Command.Reply
import RenderBroker.Proofs.Documents
import RenderBroker.Proofs.Lifecycle

namespace RenderBroker

namespace ServerConfig

/-- What is found where a configuration file is looked for sets the fields of a draft: nothing where
the look fails, whatever the fault, and what it is parsed as where a text is read. -/
inductive Sets (s : FileSight) : Draft → Prop
  | unseen {f : Fault} (failed : s.look = .error f) : Sets s {}
  | text {t : List Char} {d : Draft} (seen : s.look = .ok ())
      (read : s.content = .ok (Text.encodeUtf8 t)) (parses : Draft.ofDocument t = .ok d) : Sets s d

theorem FileSight.found_eq_none {s : FileSight} {f : Fault} (failed : s.look = .error f) :
    s.found = none := by
  rw [found, failed]

theorem FileSight.found_eq_some {s : FileSight} (seen : s.look = .ok ()) :
    s.found = some s.content := by
  rw [found, seen]

theorem ofBytes_eq_ok_iff {path : Path} {bytes : List UInt8} {d : Draft} :
    Draft.ofBytes path bytes = .ok d ↔
      ∃ t, bytes = Text.encodeUtf8 t ∧ Draft.ofDocument t = .ok d := by
  constructor
  · intro set
    rw [Draft.ofBytes] at set
    split at set
    next => cases set
    next t text =>
      split at set
      next parses =>
        cases set
        exact ⟨t, Text.decodeUtf8?_eq_some_iff.mp text, parses⟩
      next => cases set
  · rintro ⟨t, rfl, parses⟩
    rw [Draft.ofBytes, Text.decodeUtf8?_encodeUtf8]
    dsimp only
    rw [parses]

theorem ofFile_eq_ok_iff {path : Path} {s : FileSight} {d : Draft} :
    Draft.ofFile (some (path, s.found)) = .ok d ↔ Sets s d := by
  constructor
  · intro set
    cases look : s.look with
    | error f =>
      rw [FileSight.found_eq_none look] at set
      cases set
      exact .unseen look
    | ok =>
      rw [FileSight.found_eq_some look] at set
      cases content : s.content with
      | error f =>
        rw [content] at set
        cases set
      | ok bytes =>
        rw [content] at set
        obtain ⟨t, rfl, parses⟩ := ofBytes_eq_ok_iff.mp set
        exact .text look content parses
  · rintro (failed | ⟨seen, read, parses⟩)
    · rw [FileSight.found_eq_none failed]
      rfl
    · rw [FileSight.found_eq_some seen, read]
      exact ofBytes_eq_ok_iff.mpr ⟨_, rfl, parses⟩

theorem attempts_ofFile {path : Path} {found : FileView} {f : Failure}
    (failed : Draft.ofFile (some (path, found)) = .error f) :
    f.attempts = ["Failed to read config: " ++ path.display] ∨
      f.attempts = ["Failed to parse config: " ++ path.display] := by
  rcases found with _ | g | bytes
  · cases failed
  · cases failed
    exact .inl rfl
  · rw [Draft.ofFile, Draft.ofBytes] at failed
    split at failed
    next =>
      cases failed
      exact .inl rfl
    next =>
      split at failed
      next => cases failed
      next =>
        cases failed
        exact .inr rfl

theorem override_eq (c : ServerConfig) (lookup : String → Option String) :
    c.override lookup =
      { rootDir := ((lookup "VORTEK_ROOT_DIR").map .ofString).getD c.rootDir
        socketPath := ((lookup "VORTEK_SOCKET_PATH").map .ofString).getD c.socketPath
        renderOptions := (lookup "VORTEK_RENDER_OPTIONS").getD c.renderOptions } := by
  simp only [override, Variable.all, List.foldl_cons, List.foldl_nil, Variable.name]
  cases lookup "VORTEK_ROOT_DIR" <;> cases lookup "VORTEK_SOCKET_PATH" <;>
    cases lookup "VORTEK_RENDER_OPTIONS" <;> rfl

end ServerConfig

theorem Connector.binds_of_start {c : Connector} {obstacles : Obstacles} {t : FileTree}
    {owner : Nat} {started : Bool} (idle : c.running = false)
    (made : (c.start obstacles t owner).result = .ok started) :
    c.inputCapacity ≠ 0 ∧ c.binds obstacles t owner = true := by
  rw [start, if_neg (by simp [idle])] at made
  split at made
  next => cases made
  next some =>
    refine ⟨some, ?_⟩
    rw [binds]
    cases bound : c.takeAll obstacles owner t bindingSteps with
    | mk r u =>
      cases r with
      | ok => rfl
      | error e =>
        rw [listen, bound] at made
        cases made

theorem Host.start_fst {τ ω : Type} (h : Host τ ω) (obstacles : Obstacles) :
    (h.start obstacles).1 = (h.connector.start obstacles h.files (h.owner + 1)).result := by
  rw [start]
  dsimp only
  split
  next result => exact result.symm
  next => rfl

theorem Host.serves_of_start {τ ω : Type} {h g : Host τ ω} {started : Bool}
    (idle : h.connector.running = false) (made : h.start = (.ok started, g)) :
    g.connector.path = h.connector.path ∧ g.handler = h.handler ∧ h.binds = true ∧
      g.connector.running = true ∧ g.reachable = true := by
  have result := h.start_fst .none
  have start := h.started .none
  rw [made] at result start
  obtain ⟨some, bound⟩ := Connector.binds_of_start idle result.symm
  have binds : h.binds = true := by simp [Host.binds, idle, some, bound]
  cases start with
  | already running => simp [idle] at running
  | listening _ _ _ placed => exact ⟨rfl, rfl, binds, rfl, reachable_of_placed placed rfl rfl rfl⟩

theorem Host.start_of_admits {τ ω : Type} {h : Host τ ω} (idle : h.connector.running = false)
    (some : h.connector.inputCapacity ≠ 0) (admits : h.files.Admits h.connector.path) :
    ∃ g, h.start = (.ok true, g) := by
  obtain ⟨u, listens⟩ := Connector.listen_of_admits admits (h.owner + 1)
  have started : h.connector.start .none h.files (h.owner + 1) =
      ⟨.ok true, { h.connector with running := true }, u⟩ := by
    rw [Connector.start, if_neg (by simp [idle]), if_neg some, listens]
  exact ⟨_, by rw [start, started]⟩

namespace Command

open ServerConfig (Draft FileSight)

theorem text?_eq_some_iff {env : Environment} {name value : String} :
    env.text? name = some value ↔ env name = some (Text.utf8 value) := by
  rw [Environment.text?, Option.bind_eq_some_iff]
  constructor
  · rintro ⟨bytes, set, text⟩
    obtain ⟨t, read, rfl⟩ := Option.map_eq_some_iff.mp text
    rw [set, Text.utf8, String.toList_ofList, Text.encodeUtf8_of_decodeUtf8? read]
  · intro set
    refine ⟨_, set, ?_⟩
    rw [Command.text?, Text.utf8, Text.decodeUtf8?_encodeUtf8, Option.map_some,
      String.ofList_toList]

/-- The first layer that has a value decides. -/
def layered {α : Type} (argument environment file : Option α) (default : α) : α :=
  argument.getD (environment.getD (file.getD default))

namespace ServeArguments

/-- The configuration that a service runs with, where the file sets the fields of a draft. -/
def effective (a : ServeArguments) (env : Environment) (d : Draft) : ServerConfig where
  rootDir :=
    layered none ((env.text? "VORTEK_ROOT_DIR").map .ofString) (d.rootDir.map .ofString)
      env.temporary
  socketPath :=
    layered a.socket ((env.text? "VORTEK_SOCKET_PATH").map .ofString) (d.socketPath.map .ofString)
      (.ofString "tmp/.vortek/V0")
  renderOptions := layered a.options (env.text? "VORTEK_RENDER_OPTIONS") d.renderOptions ""

theorem override_complete (a : ServeArguments) (env : Environment) (d : Draft) :
    a.override ((d.complete env.temporary).override env.text?) = a.effective env d := by
  rw [ServerConfig.override_eq]
  rfl

/-- What the file that the arguments name sets; without a name, nothing is set. -/
def Finds (a : ServeArguments) (view : Path → FileSight) (d : Draft) : Prop :=
  match a.config with
  | none => d = {}
  | some path => ServerConfig.Sets (view path) d

section Runs

variable {a : ServeArguments} {files : FileTree} {view : Path → FileSight} {env : Environment}
  {d : Draft} {f : Failure} {o : RenderOptions}

theorem finds_unseen {path : Path} {fault : Fault} (named : a.config = some path)
    (failed : (view path).look = .error fault) : a.Finds view d ↔ d = {} := by
  rw [Finds, named]
  constructor
  · rintro (- | ⟨seen, -, -⟩)
    · rfl
    · rw [failed] at seen
      cases seen
  · rintro rfl
    exact .unseen failed

theorem ofFile_eq_ok :
    Draft.ofFile (a.config.map fun p => (p, (view p).found)) = .ok d ↔ a.Finds view d := by
  rw [Finds]
  cases a.config with
  | none => exact ⟨fun set => (Except.ok.inj set).symm, fun set => by rw [set]; rfl⟩
  | some path => exact ServerConfig.ofFile_eq_ok_iff

theorem plan_of_finds (finds : a.Finds view d) :
    a.plan (.within files view env) =
      ((a.effective env d).options.mapError (Failure.within "Invalid render options")).bind fun o =>
        (a.effective env d).location.map fun l => ⟨o, l, a.maxContexts⟩ := by
  simp only [plan, ServerConfig.load, Surroundings.within, ofFile_eq_ok.mpr finds, Except.map,
    bind, Except.bind, override_complete]
  cases ((a.effective env d).options.mapError (Failure.within "Invalid render options")) with
  | error => rfl
  | ok o => cases (a.effective env d).location <;> rfl

theorem run_of_plan (refused : a.plan (.within files view env) = .error f) :
    a.run (.within files view env) = (.ended (.failed f), ⟨files, [], []⟩) := by
  rw [run, refused]
  rfl

theorem run_of_unread (unread : ∀ d, ¬ a.Finds view d) :
    ∃ path f, a.config = some path ∧ (view path).look = .ok () ∧
      (f.attempts = ["Failed to read config: " ++ path.display] ∨
        f.attempts = ["Failed to parse config: " ++ path.display]) ∧
      a.run (.within files view env) = (.ended (.failed f), ⟨files, [], []⟩) := by
  cases read : Draft.ofFile (a.config.map fun p => (p, (view p).found)) with
  | ok d => exact absurd (ofFile_eq_ok.mp read) (unread d)
  | error f =>
    have refused : a.plan (.within files view env) = .error f := by
      simp only [plan, ServerConfig.load, Surroundings.within, read]
      rfl
    cases named : a.config with
    | none =>
      rw [named] at read
      cases read
    | some path =>
      rw [named] at read
      refine ⟨path, f, rfl, ?_, ServerConfig.attempts_ofFile read, run_of_plan refused⟩
      cases look : (view path).look with
      | ok => rfl
      | error => exact absurd ((finds_unseen named look).mpr rfl) (unread {})

theorem run_of_malformed (finds : a.Finds view d)
    (malformed : (a.effective env d).options = .error f) :
    a.run (.within files view env) =
      (.ended (.failed (f.within "Invalid render options")), ⟨files, [], []⟩) := by
  refine run_of_plan ?_
  rw [plan_of_finds finds, malformed]
  rfl

theorem plan_of_options (finds : a.Finds view d) (options : (a.effective env d).options = .ok o) :
    a.plan (.within files view env) =
      (a.effective env d).location.map fun l => ⟨o, l, a.maxContexts⟩ := by
  rw [plan_of_finds finds, options]
  rfl

theorem run_of_long (finds : a.Finds view d) (options : (a.effective env d).options = .ok o)
    (long : 103 < ((a.effective env d).rootDir.join (a.effective env d).socketPath).size) :
    ∃ f, (a.effective env d).location = .error f ∧
      a.run (.within files view env) = (.ended (.failed f), ⟨files, [], []⟩) := by
  have refused : (a.effective env d).location = .error _ := if_neg (Nat.not_lt.mpr long)
  refine ⟨_, refused, run_of_plan ?_⟩
  rw [plan_of_options finds options, refused]
  rfl

theorem plan_of_short (finds : a.Finds view d) (options : (a.effective env d).options = .ok o)
    (short : ((a.effective env d).rootDir.join (a.effective env d).socketPath).size ≤ 103) :
    a.plan (.within files view env) =
      .ok ⟨o, ⟨(a.effective env d).rootDir.join (a.effective env d).socketPath⟩, a.maxContexts⟩ := by
  have accepted : (a.effective env d).location = .ok _ := if_pos (Nat.lt_succ_of_le short)
  rw [plan_of_options finds options, accepted]
  rfl

end Runs

end ServeArguments

theorem launch_serving {p : ServicePlan} {f g : Footprint} {output : String} {h : Service}
    (made : p.launch f = (.serving output h, g)) :
    output = listening p.location.path ∧ h.connector.path = p.location.path ∧
      h.handler = Renderer.handler p.options ∧ h.connector.running = true ∧ h.reachable = true ∧
      g = ⟨h.files, connectorThread :: renderThread :: f.threads,
        p.location.path :: f.sockets⟩ := by
  rw [ServicePlan.launch] at made
  dsimp only at made
  split at made
  next => cases made
  next started _ start =>
    obtain ⟨path, handler, binds, running, reachable⟩ := Host.serves_of_start rfl start
    rw [if_pos binds] at made
    cases made
    exact ⟨rfl, path, handler, running, reachable, rfl⟩

theorem launch_of_admits {p : ServicePlan} {f : Footprint}
    (admits : f.files.Admits p.location.path) :
    ∃ h g, p.launch f = (.serving (listening p.location.path) h, g) := by
  obtain ⟨h, start⟩ := Host.start_of_admits (h := p.service f.files) rfl Nat.one_ne_zero admits
  have start : (p.service (f.spawn renderThread).files).start = (.ok true, h) := start
  rw [ServicePlan.launch]
  dsimp only
  rw [start]
  exact ⟨h, _, rfl⟩

/-- Each field that counts comes from its own layers. A file that a look does not find sets nothing,
one that is seen and cannot be read is refused, and all else is served where nothing keeps a socket
from the path. -/
theorem configuration_run (a : ServeArguments) (files : FileTree) (view : Path → FileSight)
    (env : Environment) :
    let s := Surroundings.within files view env
    (∀ name value, env.text? name = some value ↔ env name = some (Text.utf8 value)) ∧
    (∀ path fault, a.config = some path → (view path).look = .error fault →
      ∀ d, a.Finds view d ↔ d = {}) ∧
    ((∀ d, ¬ a.Finds view d) → ∃ path f, a.config = some path ∧ (view path).look = .ok () ∧
      (f.attempts = ["Failed to read config: " ++ path.display] ∨
        f.attempts = ["Failed to parse config: " ++ path.display]) ∧
      a.run s = (.ended (.failed f), ⟨files, [], []⟩)) ∧
    ∀ d, a.Finds view d →
      let c := a.effective env d
      let path := c.rootDir.join c.socketPath
      (c.socketPath.isAbsolute = true → path = c.socketPath) ∧
      (∀ f, c.options = .error f →
        a.run s = (.ended (.failed (f.within "Invalid render options")), ⟨files, [], []⟩)) ∧
      ∀ o, c.options = .ok o →
        (103 < path.size → ∃ f, c.location = .error f ∧
          a.run s = (.ended (.failed f), ⟨files, [], []⟩)) ∧
        (path.size ≤ 103 → a.plan s = .ok ⟨o, ⟨path⟩, a.maxContexts⟩ ∧
          (∀ output h g, a.run s = (.serving output h, g) →
            output = listening path ∧ h.connector.path = path ∧
              h.handler = Renderer.handler o ∧ h.connector.running = true ∧ h.reachable = true ∧
              g = ⟨h.files, [connectorThread, renderThread], [path]⟩) ∧
          (files.Admits path → ∃ h g, a.run s = (.serving (listening path) h, g))) := by
  intro s
  refine ⟨fun _ _ => text?_eq_some_iff, ?_, ServeArguments.run_of_unread, ?_⟩
  · intro path fault named failed d
    exact ServeArguments.finds_unseen named failed
  · intro d finds c path
    refine ⟨fun absolute => if_pos absolute, ?_, ?_⟩
    · intro f malformed
      exact ServeArguments.run_of_malformed finds malformed
    · intro o options
      refine ⟨ServeArguments.run_of_long finds options, ?_⟩
      intro short
      have plan : a.plan s = .ok ⟨o, ⟨path⟩, a.maxContexts⟩ :=
        ServeArguments.plan_of_short finds options short
      have run : a.run s = ServicePlan.launch ⟨o, ⟨path⟩, a.maxContexts⟩ s.untouched := by
        rw [ServeArguments.run, plan]
      refine ⟨plan, ?_, ?_⟩
      · intro output h g made
        rw [run] at made
        have serving := launch_serving made
        exact serving
      · intro admits
        rw [run]
        have serving := launch_of_admits (p := ⟨o, ⟨path⟩, a.maxContexts⟩) (f := s.untouched) admits
        exact serving

/-- A variable is empty, another is no text, and the arguments repair the options of the file. In a
directory that may not be searched the same file sets nothing. -/
theorem configuration_run_layered :
    let members : List (List Char × Json.Value) :=
      [("root_dir".toList, .text "/r"), ("socket_path".toList, .text "s"),
        ("render_options".toList, .text "x")]
    let content : Except Fault (List UInt8) :=
      .ok (Text.encodeUtf8 (Json.Value.object members).compact)
    let plain : ServeArguments := { config := some (.ofString "c") }
    let a : ServeArguments := { plain with options := some "imageCacheSize=7" }
    let env : Environment := fun name =>
      if name = "VORTEK_ROOT_DIR" then some []
      else if name = "VORTEK_SOCKET_PATH" then some [0xFF]
      else none
    (∃ h g, a.run (.within {} (fun _ => ⟨.ok (), content⟩) env) =
      (.serving (listening (.ofString "s")) h, g)) ∧
    (∃ f, plain.run (.within {} (fun _ => ⟨.ok (), content⟩) env) =
      (.ended (.failed f), ⟨{}, [], []⟩)) ∧
    ∃ h g, plain.run (.within {} (fun _ => ⟨.error .permissionDenied, content⟩) env) =
      (.serving (listening (.ofString "tmp/.vortek/V0")) h, g) := by
  intro members content plain a env
  have sets : ServerConfig.Sets ⟨.ok (), content⟩ ⟨some "/r", some "s", some "x"⟩ :=
    .text rfl rfl
      (ServerConfig.Draft.ofDocument_compact rfl (ServerConfig.gathers_members "/r" "s" "x"))
  obtain ⟨-, -, -, served⟩ := configuration_run a {} (fun _ => ⟨.ok (), content⟩) env
  obtain ⟨-, -, accepted⟩ := served _ sets
  obtain ⟨-, -, -, seen⟩ := configuration_run plain {} (fun _ => ⟨.ok (), content⟩) env
  obtain ⟨-, malformed, -⟩ := seen _ sets
  obtain ⟨-, unseen, -, hidden⟩ :=
    configuration_run plain {} (fun _ => ⟨.error .permissionDenied, content⟩) env
  obtain ⟨-, -, default⟩ := hidden _ ((unseen (.ofString "c") .permissionDenied rfl rfl {}).mpr rfl)
  have given : a.effective env ⟨some "/r", some "s", some "x"⟩ =
      ⟨.ofString "", .ofString "s", "imageCacheSize=7"⟩ := rfl
  have found : plain.effective env ⟨some "/r", some "s", some "x"⟩ =
      ⟨.ofString "", .ofString "s", "x"⟩ := rfl
  have left : plain.effective env {} = ⟨.ofString "", .ofString "tmp/.vortek/V0", ""⟩ := rfl
  rw [given] at accepted
  rw [found] at malformed
  rw [left] at default
  have here : FileTree.Admits {} (.ofString "s") :=
    ⟨{}, [Text.utf8 "s"], rfl, ⟨by decide +kernel, .vacant _, by decide +kernel, rfl⟩, by decide⟩
  have below : FileTree.Admits {} (.ofString "tmp/.vortek/V0") :=
    ⟨_, [Text.utf8 "tmp", Text.utf8 ".vortek", Text.utf8 "V0"], Prod.ext (by decide +kernel) rfl,
      ⟨by decide +kernel, .vacant _, by decide +kernel, rfl⟩, by decide⟩
  refine ⟨?_, ⟨_, malformed _ (by rfl)⟩, ?_⟩
  · obtain ⟨-, -, serving⟩ := (accepted { imageCache := 7 } (by rfl)).2 (by decide)
    exact serving here
  · obtain ⟨-, -, serving⟩ := (default {} (by rfl)).2 (by decide)
    exact serving below

end Command

end RenderBroker
