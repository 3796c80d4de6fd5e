import OnlyJs.Oj.Platform

/-!
# Names with privileges

A start grants only names that lie under the platform root. A reload keeps that true where
every granted name that it finds, and that the generation before had, lies in the tree that
is mounted at the platform root of its own configuration.
-/

namespace OnlyJs.Oj.Platform

open Lib List

set_option autoImplicit false

/-- The directory lies under the platform root of the configuration. -/
def UnderRoot (input : Input) (dir : Path) : Prop :=
  ∃ platform raw root, input.platform = some platform ∧ platform.root = some raw ∧
    input.disk.canonicalize raw = .ok root ∧ root <+: dir

/-- Every module with a granted name is served from under the platform root. -/
def Placed (server : Server) : Prop :=
  ∀ granted, server.granted = some granted → ∀ name ∈ granted, ∀ dir,
    (dir, name) ∈ server.modules → UnderRoot server.input dir

/-- The name is found in one of the trees. -/
def Found (input : Input) (name : String) : Prop :=
  ∃ tree ∈ input.trees, ∃ found, discover input.disk input.index tree.1 tree.2 = .ok found ∧
    name ∈ found.map Prod.fst

/-- The name is found in the tree that is mounted at the platform root. -/
def Deployed (input : Input) (name : String) : Prop :=
  ∃ platform raw root ts found, input.platform = some platform ∧ platform.root = some raw ∧
    input.disk.canonicalize raw = .ok root ∧ (root, ts) ∈ input.trees ∧
      discover input.disk input.index root ts = .ok found ∧ name ∈ found.map Prod.fst

/-- A reload that finds a granted name of the generation before finds it at the platform
root. -/
def Orderly (state : Option Server) : Label → Prop
  | .start _ => True
  | .reload input => ∀ server granted, state = some server → server.granted = some granted →
      ∀ name ∈ granted, name ∈ names server.modules → Found input name → Deployed input name

variable {disk : Disk} {index : Option ModuleIndex} {dir : Path} {ts : Bool}
  {owners found after : List (String × Path)} {trees : List (Path × Bool)}

theorem locked_inside {lock : List (String × String)}
    (locked : lockedModules disk dir lock = .ok found) : ∀ entry ∈ found, dir <+: entry.2 := by
  induction lock generalizing found with
  | nil =>
    cases locked
    exact nofun
  | cons first rest ih =>
    simp only [lockedModules] at locked
    split at locked
    · cases locked
    · cases later : lockedModules disk dir rest with
      | error error =>
        rw [later] at locked
        cases locked
      | ok others =>
        rw [later] at locked
        cases locked
        intro entry listed
        rcases mem_cons.mp listed with rfl | listed
        · exact prefix_append _ _
        · exact ih later entry listed

theorem discover_inside (real : disk.canonicalize dir = .ok dir)
    (discovered : discover disk index dir ts = .ok found) : ∀ entry ∈ found, dir <+: entry.2 := by
  unfold discover at discovered
  cases covered : covers disk index dir with
  | some index =>
    rw [covered] at discovered
    cases discovered
    have base := (Option.filter_eq_some_iff.mp covered).2
    rw [real] at base
    have base : dir = index.base := by simpa using base
    rw [base]
    exact index.inside
  | none =>
    rw [covered] at discovered
    dsimp only at discovered
    split at discovered
    · cases loaded : loadModules disk dir (some "tasks") with
      | error error =>
        rw [loaded] at discovered
        cases discovered
      | ok manifests =>
        rw [loaded] at discovered
        cases discovered
        intro entry listed
        rw [mem_mergeSort] at listed
        obtain ⟨manifest, -, rfl⟩ := mem_map.mp listed
        exact prefix_append _ _
    · cases lock : disk.loadLock (dir ++ ["manifests.yaml"]) with
      | error error =>
        rw [lock] at discovered
        cases discovered
      | ok entries =>
        rw [lock] at discovered
        exact locked_inside discovered

variable {name : String}

theorem not_mem_of_lookup (free : owners.lookup name = none) :
    name ∉ owners.map Prod.fst := by
  intro listed
  obtain ⟨entry, there, rfl⟩ := mem_map.mp listed
  have differs := lookup_eq_none_iff.mp free entry there
  simp at differs

theorem declare_ok (distinct : (owners.map Prod.fst).Nodup)
    (declared : declare disk owners found = .ok after) :
    after = owners ++ found ∧ (after.map Prod.fst).Nodup := by
  induction found generalizing owners with
  | nil =>
    cases declared
    exact ⟨(append_nil _).symm, distinct⟩
  | cons first rest ih =>
    obtain ⟨name, dir⟩ := first
    simp only [declare] at declared
    split at declared
    · cases declared
    · rename_i free
      cases parsed : disk.parseOne (dir ++ ["manifest.yaml"]) with
      | error error =>
        rw [parsed] at declared
        cases declared
      | ok manifest =>
        cases registered : disk.schema name dir with
        | error error =>
          rw [parsed] at declared
          simp only [registered] at declared
          cases declared
        | ok done =>
          rw [parsed] at declared
          simp only [registered] at declared
          have apart : ((owners ++ [(name, dir)]).map Prod.fst).Nodup := by
            rw [map_append]
            refine nodup_append.mpr ⟨distinct, nodup_singleton _, ?_⟩
            rintro other listed last same rfl
            rw [map_singleton, mem_singleton] at same
            rw [same] at listed
            exact not_mem_of_lookup free listed
          obtain ⟨same, unique⟩ := ih apart declared
          refine ⟨?_, unique⟩
          rw [same, append_assoc]
          rfl

/-- The owners of the names are the modules of all trees, each name once. -/
theorem build_ok (distinct : (owners.map Prod.fst).Nodup)
    (built : buildModules disk index owners trees = .ok after) :
    (after.map Prod.fst).Nodup ∧ (∀ entry ∈ owners, entry ∈ after) ∧
      (∀ tree ∈ trees, ∀ found, discover disk index tree.1 tree.2 = .ok found →
        ∀ entry ∈ found, entry ∈ after) ∧
      ∀ entry ∈ after, entry ∈ owners ∨ ∃ tree ∈ trees, ∃ found,
        discover disk index tree.1 tree.2 = .ok found ∧ entry ∈ found := by
  induction trees generalizing owners with
  | nil =>
    cases built
    exact ⟨distinct, fun _ listed => listed, nofun, fun _ listed => .inl listed⟩
  | cons tree rest ih =>
    simp only [buildModules] at built
    cases discovered : discover disk index tree.1 tree.2 with
    | error error =>
      rw [discovered] at built
      cases built
    | ok found =>
      rw [discovered] at built
      simp only [Except.bind] at built
      cases declared : declare disk owners found with
      | error error =>
        rw [declared] at built
        cases built
      | ok more =>
        rw [declared] at built
        obtain ⟨same, apart⟩ := declare_ok distinct declared
        obtain ⟨unique, kept, held, origin⟩ := ih apart built
        subst same
        refine ⟨unique, ?_, ?_, ?_⟩
        · exact fun entry listed => kept entry (mem_append_left _ listed)
        · intro other listed others same entry there
          rcases mem_cons.mp listed with rfl | listed
          · rw [discovered] at same
            cases same
            exact kept entry (mem_append_right _ there)
          · exact held other listed others same entry there
        · intro entry listed
          rcases origin entry listed with there | ⟨other, among, others, same, there⟩
          · rcases mem_append.mp there with before | new
            · exact .inl before
            · exact .inr ⟨tree, mem_cons_self, found, discovered, new⟩
          · exact .inr ⟨other, mem_cons_of_mem _ among, others, same, there⟩

theorem mem_moduleMap (listed : (dir, name) ∈ moduleMap owners) :
    (name, dir) ∈ owners := by
  have kept : ∀ (rest : List (String × Path)) (modules : List (Path × String)),
      (dir, name) ∈ rest.foldl (fun modules entry =>
        (modules.filter fun other => other.1 ≠ entry.2) ++ [(entry.2, entry.1)]) modules →
          (dir, name) ∈ modules ∨ (name, dir) ∈ rest := by
    intro rest
    induction rest with
    | nil => exact fun modules there => .inl there
    | cons entry rest ih =>
      intro modules there
      rcases ih _ there with earlier | later
      · rcases mem_append.mp earlier with before | last
        · exact .inl (mem_of_mem_filter before)
        · cases mem_singleton.mp last
          exact .inr mem_cons_self
      · exact .inr (mem_cons_of_mem _ later)
  rcases kept owners [] listed with absurd | there
  · cases absurd
  · exact there

variable {input : Input}

theorem underRoot_of_deployed
    (built : buildModules input.disk input.index [] input.trees = .ok owners)
    (deployed : Deployed input name) (listed : (dir, name) ∈ moduleMap owners) :
    UnderRoot input dir := by
  obtain ⟨platform, raw, root, ts, found, configured, given, real, mounted, discovered, there⟩ :=
    deployed
  obtain ⟨⟨same, home⟩, held, rfl⟩ := mem_map.mp there
  have none : (([] : List (String × Path)).map Prod.fst).Nodup := nodup_nil
  obtain ⟨unique, -, all, -⟩ := build_ok none built
  have owned := all (root, ts) mounted found discovered (same, home) held
  have inside := discover_inside (input.disk.canonical raw root real) discovered (same, home) held
  have single : dir = home := by
    have pairs := inj_on_of_nodup_map unique (mem_moduleMap listed) owned rfl
    exact congrArg Prod.snd pairs
  rw [single]
  exact ⟨platform, raw, root, configured, given, real, inside⟩

theorem platformNames_ok {platform : PlatformConfig} {controlled : Option (List String)}
    (named : platformNames disk index trees platform = .ok controlled)
    (some : platform.modules ≠ []) :
    ∃ raw root ts found, platform.root = .some raw ∧ disk.canonicalize raw = .ok root ∧
      (root, ts) ∈ trees ∧ discover disk index root ts = .ok found ∧
        controlled = .some (found.map Prod.fst) := by
  unfold platformNames at named
  rw [if_neg some] at named
  cases given : platform.root with
  | none =>
    rw [given] at named
    cases named
  | some raw =>
    rw [given] at named
    dsimp only at named
    cases real : disk.canonicalize raw with
    | error error =>
      rw [real] at named
      cases named
    | ok root =>
      rw [real] at named
      dsimp only at named
      split at named
      · cases named
      · split at named
        · cases named
        · rename_i tree mounted
          have same : tree.1 = root := by
            have fits := find?_some mounted
            simpa using fits
          cases discovered : discover disk index tree.1 tree.2 with
          | error error =>
            rw [discovered] at named
            cases named
          | ok found =>
            rw [discovered] at named
            cases named
            subst same
            exact ⟨raw, tree.1, tree.2, found, rfl, real, mem_of_find?_eq_some mounted,
              discovered, rfl⟩

theorem grants_deployed {installed granted : List String}
    (built : buildPlatformGrants input.disk input.index input.trees installed input.platform =
      .ok (some granted)) :
    ∀ name ∈ granted, Deployed input name := by
  intro name listed
  cases configured : input.platform with
  | none =>
    rw [configured] at built
    cases built
  | some platform =>
    rw [configured] at built
    simp only [buildPlatformGrants] at built
    cases named : platformNames input.disk input.index input.trees platform with
    | error error =>
      rw [named] at built
      cases built
    | ok controlled =>
      rw [named] at built
      simp only [Except.bind] at built
      split at built
      · cases built
      · split at built
        · cases built
        · rename_i deployed
          cases trusted : trust input.disk platform.trusted with
          | error error =>
            rw [trusted] at built
            cases built
          | ok done =>
            rw [trusted] at built
            cases built
            obtain ⟨raw, root, ts, found, given, real, mounted, discovered, rfl⟩ :=
              platformNames_ok named (ne_nil_of_mem listed)
            refine ⟨platform, raw, root, ts, found, configured, given, real, mounted,
              discovered, ?_⟩
            have held := find?_eq_none.mp deployed name listed
            simpa using held

theorem start_placed {server : Server} (started : start input = .ok server) :
    Placed server := by
  unfold start at started
  cases built : buildModules input.disk input.index [] input.trees with
  | error error =>
    rw [built] at started
    cases started
  | ok owners =>
    rw [built] at started
    simp only [Except.bind] at started
    cases grants : buildPlatformGrants input.disk input.index input.trees
      (names (moduleMap owners)) input.platform with
    | error error =>
      rw [grants] at started
      cases started
    | ok granted =>
      rw [grants] at started
      cases others : input.others with
      | error error =>
        rw [others] at started
        cases started
      | ok done =>
        rw [others] at started
        cases started
        intro listed same name member dir there
        subst same
        exact underRoot_of_deployed built (grants_deployed grants name member) there

theorem reload_placed {server next : Server}
    (orderly : ∀ granted, server.granted = some granted →
      ∀ name ∈ granted, name ∈ names server.modules → Found input name → Deployed input name)
    (reloaded : reload server input = .ok next) : Placed next := by
  unfold reload at reloaded
  cases built : buildModules input.disk input.index [] input.trees with
  | error error =>
    rw [built] at reloaded
    cases reloaded
  | ok owners =>
    rw [built] at reloaded
    simp only [Except.bind] at reloaded
    cases checked : checkPlatformSquatting server.granted server.modules (moduleMap owners) with
    | error error =>
      rw [checked] at reloaded
      cases reloaded
    | ok done =>
      rw [checked] at reloaded
      cases others : input.others with
      | error error =>
        rw [others] at reloaded
        cases reloaded
      | ok done =>
        rw [others] at reloaded
        cases reloaded
        intro granted same name member dir there
        -- a granted name passes the check only if the generation before had it
        have before : name ∈ names server.modules := by
          unfold checkPlatformSquatting at checked
          rw [same] at checked
          dsimp only at checked
          split at checked
          · cases checked
          · rename_i clean
            have listed : name ∈ names (moduleMap owners) :=
              mem_map.mpr ⟨(dir, name), there, rfl⟩
            have known := find?_eq_none.mp clean name listed
            simpa [member] using known
        have none : (([] : List (String × Path)).map Prod.fst).Nodup := nodup_nil
        obtain ⟨-, -, -, origin⟩ := build_ok none built
        have found : Found input name := by
          rcases origin (name, dir) (mem_moduleMap there) with absurd |
            ⟨tree, mounted, found, discovered, held⟩
          · cases absurd
          · exact ⟨tree, mounted, found, discovered, mem_map.mpr ⟨_, held, rfl⟩⟩
        exact underRoot_of_deployed built (orderly granted same name member before found) there

theorem placed_step : StepSystem.Preserved system Orderly fun state =>
    ∀ server, state = some server → Placed server := by
  intro state label next placed orderly fired
  cases label with
  | start input =>
    cases state with
    | some server => cases fired
    | none =>
      cases fired
      intro server started
      cases run : start input with
      | error error =>
        rw [run] at started
        cases started
      | ok server =>
        rw [run] at started
        cases started
        exact start_placed run
  | reload input =>
    obtain ⟨server, rfl, rfl⟩ := Option.map_eq_some_iff.mp fired
    intro after same
    cases run : reload server input with
    | error error =>
      rw [run] at same
      cases same
      exact placed server rfl
    | ok next =>
      rw [run] at same
      cases same
      exact reload_placed (fun granted same => orderly server granted rfl same) run

/-- Over a start and any reloads, where each reload that finds a granted name of the
generation before finds it at the platform root of its configuration, every module with a
granted name is served from under the platform root of the running generation. -/
theorem privileged_names_placed {server : Server}
    (reached : StepSystem.Reachable system Orderly (some server)) : Placed server := by
  obtain ⟨labels, path⟩ := reached
  have initial : ∀ server, system.init = some server → Placed server := nofun
  exact StepSystem.path_preserves placed_step path initial server rfl

def sampleDisk (locked : List Path) : Disk where
  canonicalize := fun path => .ok path
  readDir := fun _ => .ok none
  isDir := fun _ => true
  isFile := fun _ => true
  parseOne := fun _ => .ok ⟨"admin"⟩
  loadLock := fun path => .ok (if path ∈ locked then [("admin", "1.0.0")] else [])
  schema := fun _ _ => .ok ()
  canonical := fun path real same => by
    cases same
    rfl

def samplePlatform : PlatformConfig := ⟨["admin"], some ["platform"], []⟩

def deployedInput : Input where
  disk := sampleDisk [["platform", "manifests.yaml"]]
  index := none
  trees := [(["platform"], false), (["market"], false)]
  platform := some samplePlatform
  others := .ok ()

def marketInput : Input where
  disk := sampleDisk [["platform", "manifests.yaml"], ["market", "manifests.yaml"]]
  index := none
  trees := [(["market"], false)]
  platform := some samplePlatform
  others := .ok ()

theorem deployed_sample : Deployed deployedInput "admin" :=
  ⟨samplePlatform, ["platform"], ["platform"], false, [("admin", ["platform", "admin-1.0.0"])],
    rfl, rfl, rfl, mem_cons_self, rfl, mem_cons_self⟩

/-- A start and a reload of the same trees. -/
theorem privileged_names_placed_sample : ∃ server : Server,
    server.granted = some ["admin"] ∧
      server.modules = [(["platform", "admin-1.0.0"], "admin")] ∧ Placed server := by
  have orderly : Orderly (some ⟨some ["admin"], [(["platform", "admin-1.0.0"], "admin")],
      deployedInput⟩) (.reload deployedInput) := by
    intro server granted same grants name member _ _
    cases same
    cases grants
    rw [mem_singleton.mp member]
    exact deployed_sample
  have path : StepSystem.Path system Orderly none [.start deployedInput, .reload deployedInput] _ :=
    ⟨trivial, _, rfl, orderly, _, rfl, rfl⟩
  exact ⟨_, rfl, rfl, privileged_names_placed ⟨_, path⟩⟩

/-- After a reload that mounts the market in place of the platform root, its module of the
granted name runs with privileges. -/
theorem granted_from_market : ∃ server : Server,
    StepSystem.Reachable system StepSystem.Unrestricted (some server) ∧
      server.granted = some ["admin"] ∧
        server.modules = [(["market", "admin-1.0.0"], "admin")] ∧ ¬ Placed server := by
  have path : StepSystem.Path system StepSystem.Unrestricted none
      [.start deployedInput, .reload marketInput]
      (some ⟨some ["admin"], [(["market", "admin-1.0.0"], "admin")], marketInput⟩) :=
    ⟨trivial, _, rfl, trivial, _, rfl, rfl⟩
  refine ⟨_, ⟨_, path⟩, rfl, rfl, fun placed => ?_⟩
  obtain ⟨platform, raw, root, configured, given, real, inside⟩ :=
    placed ["admin"] rfl "admin" mem_cons_self ["market", "admin-1.0.0"] mem_cons_self
  cases configured
  cases given
  cases real
  exact absurd inside (by decide)

end OnlyJs.Oj.Platform
