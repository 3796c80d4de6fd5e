import Mathlib.Data.Finset.Card
import OnlyJs.Lib.StepSystem

/-!
# CommonJS modules

`require` looks for the answer under the text of the referrer and the name. Only then the
name is resolved, and the code that wraps a file keeps a registry by path, so that a file
whose code is still running hands out the exports it has so far. A JSON file has no such
wrapper, and a file that is imported runs outside the registry.
-/

namespace OnlyJs.Bridge.CommonJs

open Lib.StepSystem List Function

abbrev Text := List Char

abbrev Path := Text

abbrev Obj := Nat

/-- What the code of a file does with modules. -/
inductive Action where
  /-- `assigns` says that the answer becomes `module.exports`. -/
  | require (name : Text) (assigns : Bool)
  /-- `module.exports = {…}` -/
  | replace
deriving DecidableEq

structure Graph where
  files : Finset Path
  resolve : Path → Text → Path
  isJson : Path → Bool
  body : Path → List Action
  closed : ∀ referrer name, resolve referrer name ∈ files

/-- A file whose code is running: for which call, unless it was imported, and whose
`module.exports` the answer becomes. -/
structure Frame where
  path : Path
  call : Option (Path × Text)
  target : Option Path
  rest : List Action
deriving DecidableEq

structure State where
  /-- `__ojCjsRun`, with the exports of each module. -/
  registry : Path → Option Obj
  /-- `__ojReqCache`, the newest entry first. -/
  cache : List ((Path × Text) × Obj)
  fresh : Obj
  /-- The files whose code has been started. -/
  log : List Path
  /-- What was required, and the answers. -/
  trace : List (Path × Obj)
  stack : List Frame

inductive Label where
  /-- A call of `require` that no running file makes: the first, or one made later. -/
  | request (referrer : Path) (name : Text)
  /-- A file is imported as a module. -/
  | load (path : Path)
  /-- The running code goes on. -/
  | tick
deriving DecidableEq

def key (call : Path × Text) : Text := call.1 ++ "::".toList ++ call.2

def State.cached (state : State) (call : Path × Text) : Option ((Path × Text) × Obj) :=
  state.cache.find? fun entry => key entry.1 == key call

def State.deliver (state : State) (path : Path) (target : Option Path) (obj : Obj) : State :=
  { state with
    trace := (path, obj) :: state.trace
    registry := match target with
      | some file => Function.update state.registry file (some obj)
      | none => state.registry }

def State.keep (state : State) (call : Path × Text) (obj : Obj) : State :=
  { state with cache := (call, obj) :: state.cache }

/-- A new object for the code of a file that starts. -/
def State.enter (state : State) (path : Path) : State :=
  { state with fresh := state.fresh + 1, log := path :: state.log }

variable (graph : Graph)

def ojRequire (state : State) (call : Path × Text) (target : Option Path) : State :=
  let path := graph.resolve call.1 call.2
  match state.cached call with
  | some entry => state.deliver path target entry.2
  | none =>
    if graph.isJson path then
      ((state.enter path).keep call state.fresh).deliver path target state.fresh
    else
      match state.registry path with
      | some obj => (state.keep call obj).deliver path target obj
      | none =>
        { state.enter path with
          registry := Function.update state.registry path (some state.fresh)
          stack := ⟨path, some call, target, graph.body path⟩ :: state.stack }

def step (state : State) : Label → Option State
  | .request referrer name =>
    if state.stack = [] then some (ojRequire graph state (referrer, name) none) else none
  | .load path =>
    if state.stack = [] then
      some { state.enter path with stack := [⟨path, none, none, graph.body path⟩] }
    else none
  | .tick =>
    match state.stack with
    | [] => none
    | frame :: below =>
      match frame.rest with
      | .require name assigns :: rest =>
        some (ojRequire graph { state with stack := { frame with rest } :: below }
          (frame.path, name)
          (if assigns && frame.call.isSome then some frame.path else none))
      | .replace :: rest =>
        some { state with
          fresh := state.fresh + 1
          registry := if frame.call.isSome then
              Function.update state.registry frame.path (some state.fresh)
            else state.registry
          stack := { frame with rest } :: below }
      | [] =>
        match frame.call, state.registry frame.path with
        | some call, some obj =>
          some (({ state with stack := below }.keep call obj).deliver frame.path
            frame.target obj)
        | _, _ => some { state with stack := below }

def runtime : System State Label where
  init := ⟨fun _ => none, [], 0, [], [], []⟩
  step := step graph

/-- Every file was started once, and every answer is the exports object that its module has,
the same for every caller. -/
structure Sound (state : State) : Prop where
  once : state.log.Nodup
  same : ∀ path first second, (path, first) ∈ state.trace → (path, second) ∈ state.trace →
    first = second
  current : ∀ path obj, (path, obj) ∈ state.trace → graph.isJson path = false →
    state.registry path = some obj

/-- The running code comes to its end. -/
def Ends (state : State) : Prop :=
  ∃ ticks final, (runtime graph).run state (List.replicate ticks .tick) = some final ∧
    final.stack = []

def Untouched (state : State) (path : Path) : Prop := ∀ obj, (path, obj) ∉ state.trace

/-- The call finds no answer of another file under the text of its own, no file runs that was
imported or is JSON and ran before, and no `module.exports` changes that was handed out. -/
def CarefulCall (state : State) (call : Path × Text) (target : Option Path) : Prop :=
  let path := graph.resolve call.1 call.2
  (∀ entry, state.cached call = some entry → graph.resolve entry.1.1 entry.1.2 = path) ∧
    (state.cached call = none → graph.isJson path = true ∨ state.registry path = none →
      path ∉ state.log) ∧
    ∀ file ∈ target, Untouched state file

def Careful (state : State) : Label → Prop
  | .request referrer name => CarefulCall graph state (referrer, name) none
  | .load path => path ∉ state.log
  | .tick => ∀ frame below, state.stack = frame :: below →
      match frame.rest with
      | .require name assigns :: _ => CarefulCall graph state (frame.path, name)
          (if assigns && frame.call.isSome then some frame.path else none)
      | .replace :: _ => Untouched state frame.path
      | [] => ∀ file ∈ frame.target, Untouched state file

structure FrameKept (log : List Path) (frame : Frame) : Prop where
  started : frame.path ∈ log
  called : ∀ call ∈ frame.call, graph.resolve call.1 call.2 = frame.path ∧
    graph.isJson frame.path = false
  waits : ∀ file ∈ frame.target, file ∈ log

structure Kept (state : State) : Prop extends Sound graph state where
  logged : ∀ path, state.registry path ≠ none → path ∈ state.log
  traced : ∀ path obj, (path, obj) ∈ state.trace → path ∈ state.log
  cached : ∀ entry ∈ state.cache, (graph.resolve entry.1.1 entry.1.2, entry.2) ∈ state.trace
  frames : ∀ frame ∈ state.stack, FrameKept graph state.log frame

variable {graph} {state : State}

variable {call : Path × Text} {obj : Obj}

theorem Kept.keep (kept : Kept graph state)
    (answered : (graph.resolve call.1 call.2, obj) ∈ state.trace) :
    Kept graph (state.keep call obj) where
  toSound := ⟨kept.once, kept.same, kept.current⟩
  logged := kept.logged
  traced := kept.traced
  cached := forall_mem_cons.mpr ⟨answered, kept.cached⟩
  frames := kept.frames

variable {frame : Frame}

theorem FrameKept.mono {log : List Path} (kept : FrameKept graph log frame) (path : Path) :
    FrameKept graph (path :: log) frame where
  started := mem_cons_of_mem _ kept.started
  called := kept.called
  waits := fun file waits => mem_cons_of_mem _ (kept.waits file waits)

variable {path : Path}

theorem Kept.enter (kept : Kept graph state) (new : path ∉ state.log) :
    Kept graph (state.enter path) where
  toSound := ⟨nodup_cons.mpr ⟨new, kept.once⟩, kept.same, kept.current⟩
  logged := fun path stands => mem_cons_of_mem _ (kept.logged path stands)
  traced := fun path obj traced => mem_cons_of_mem _ (kept.traced path obj traced)
  cached := kept.cached
  frames := fun frame member => (kept.frames frame member).mono path

variable {file : Path}

theorem Kept.update (kept : Kept graph state) (started : file ∈ state.log)
    (untouched : Untouched state file) (obj : Obj) :
    Kept graph { state with registry := Function.update state.registry file (some obj) } where
  toSound := ⟨kept.once, kept.same, fun path other traced plain => by
    have different : path ≠ file := fun same => untouched other (same ▸ traced)
    exact (update_of_ne different _ _).trans (kept.current path other traced plain)⟩
  logged := fun path stands => by
    by_cases same : path = file
    · exact same ▸ started
    · exact kept.logged path (update_of_ne same (some obj) state.registry ▸ stands)
  traced := kept.traced
  cached := kept.cached
  frames := kept.frames

theorem Kept.answer (kept : Kept graph state) (started : path ∈ state.log)
    (same : ∀ other, (path, other) ∈ state.trace → other = obj)
    (current : graph.isJson path = false → state.registry path = some obj) :
    Kept graph { state with trace := (path, obj) :: state.trace } where
  toSound := ⟨kept.once, by
      intro file first second firstly secondly
      simp only [mem_cons, Prod.mk.injEq] at firstly secondly
      rcases firstly with ⟨rfl, rfl⟩ | firstly <;> rcases secondly with ⟨named, rfl⟩ | secondly
      · rfl
      · exact (same second secondly).symm
      · exact same first (named ▸ firstly)
      · exact kept.same file first second firstly secondly,
    by
      intro file other traced plain
      rcases mem_cons.mp traced with new | traced
      · cases new
        exact current plain
      · exact kept.current file other traced plain⟩
  logged := kept.logged
  traced := fun file other traced => by
    rcases mem_cons.mp traced with new | traced
    · cases new
      exact started
    · exact kept.traced file other traced
  cached := fun entry member => mem_cons_of_mem _ (kept.cached entry member)
  frames := kept.frames

variable {target : Option Path}

section

variable (kept : Kept graph state)
include kept

theorem Kept.deliver (started : path ∈ state.log)
    (same : ∀ other, (path, other) ∈ state.trace → other = obj)
    (current : graph.isJson path = false → state.registry path = some obj)
    (waits : ∀ file ∈ target, file ∈ state.log)
    (untouched : ∀ file ∈ target, Untouched state file) :
    Kept graph (state.deliver path target obj) := by
  cases target with
  | none => exact kept.answer started same current
  | some file =>
    refine (kept.update (waits file rfl) (untouched file rfl) obj).answer started same
      fun plain => ?_
    by_cases own : path = file
    · subst own
      exact update_self _ _ _
    · exact (update_of_ne own _ _).trans (current plain)

theorem Kept.push (sound : FrameKept graph state.log frame) :
    Kept graph { state with stack := frame :: state.stack } where
  toSound := ⟨kept.once, kept.same, kept.current⟩
  logged := kept.logged
  traced := kept.traced
  cached := kept.cached
  frames := forall_mem_cons.mpr ⟨sound, kept.frames⟩

theorem Kept.pop {below : List Frame} (top : state.stack = frame :: below) :
    Kept graph { state with stack := below } where
  toSound := ⟨kept.once, kept.same, kept.current⟩
  logged := kept.logged
  traced := kept.traced
  cached := kept.cached
  frames := fun other member => kept.frames other (top ▸ mem_cons_of_mem _ member)

theorem Kept.renew (fresh : Obj) :
    Kept graph { state with fresh } :=
  ⟨⟨kept.once, kept.same, kept.current⟩, kept.logged, kept.traced, kept.cached, kept.frames⟩

end

theorem State.cached_mem {entry : (Path × Text) × Obj} (found : state.cached call = some entry) :
    entry ∈ state.cache :=
  mem_of_find?_eq_some found

/-- A careful call keeps the invariant. -/
theorem Kept.require (kept : Kept graph state) (careful : CarefulCall graph state call target)
    (waits : ∀ file ∈ target, file ∈ state.log) :
    Kept graph (ojRequire graph state call target) := by
  obtain ⟨distinct, new, untouched⟩ := careful
  have recorded {after : State} {obj : Obj} {path : Path}
      (named : graph.resolve call.1 call.2 = path)
      (answered : Kept graph (after.deliver path target obj)) :
      Kept graph ((after.keep call obj).deliver path target obj) :=
    answered.keep (named ▸ mem_cons_self)
  simp only [ojRequire]
  split
  · rename_i entry found
    have answered := kept.cached entry (State.cached_mem found)
    rw [distinct entry found] at answered
    exact kept.deliver (kept.traced _ _ answered)
      (fun other traced => kept.same _ _ _ traced answered) (kept.current _ _ answered)
      waits untouched
  · rename_i missing
    split
    · rename_i json
      have unseen := new missing (.inl json)
      exact recorded rfl ((kept.enter unseen).deliver mem_cons_self
        (fun other traced => absurd (kept.traced _ other traced) unseen)
        (fun plain => absurd json (by simp [plain]))
        (fun file waiting => mem_cons_of_mem _ (waits file waiting)) untouched)
    · rename_i plain
      have plain := Bool.eq_false_iff.mpr plain
      split
      · rename_i obj stands
        have same (other : Obj) (traced : (graph.resolve call.1 call.2, other) ∈ state.trace) :
            other = obj :=
          Option.some.inj ((kept.current _ other traced plain).symm.trans stands)
        exact recorded rfl (kept.deliver (kept.logged _ (by simp [stands])) same
          (fun _ => stands) waits untouched)
      · rename_i absent
        have unseen := new missing (.inr absent)
        have unanswered : Untouched (state.enter (graph.resolve call.1 call.2))
            (graph.resolve call.1 call.2) := fun obj traced => unseen (kept.traced _ obj traced)
        exact ((kept.enter unseen).update mem_cons_self unanswered state.fresh).push
          ⟨mem_cons_self, fun _ same => by cases same; exact ⟨rfl, plain⟩,
            fun file waiting => mem_cons_of_mem _ (waits file waiting)⟩

/-- One careful step keeps the invariant. -/
theorem kept_step : Preserved (runtime graph) (Careful graph) (Kept graph) := by
  intro state label next kept careful fired
  cases label with
  | request referrer name =>
    obtain ⟨_, ⟨⟩⟩ := Option.ite_none_right_eq_some.mp fired
    exact kept.require careful nofun
  | load path =>
    obtain ⟨idle, ⟨⟩⟩ := Option.ite_none_right_eq_some.mp fired
    have entered := kept.enter careful
    rw [← idle]
    exact entered.push ⟨mem_cons_self, nofun, nofun⟩
  | tick =>
    simp only [runtime, step] at fired
    split at fired
    · cases fired
    · rename_i frame below top
      have sound := kept.frames frame (top ▸ mem_cons_self)
      have careful := careful frame below top
      have moved (rest : List Action) :
          Kept graph { state with stack := { frame with rest } :: below } :=
        (kept.pop top).push ⟨sound.started, sound.called, sound.waits⟩
      split at fired
      · rename_i name assigns rest same
        rw [same] at careful
        cases fired
        exact (moved rest).require careful fun file waiting => by
          split at waiting
          · cases waiting
            exact sound.started
          · cases waiting
      · rename_i rest same
        rw [same] at careful
        cases fired
        split
        · exact ((moved rest).update sound.started careful state.fresh).renew _
        · exact (moved rest).renew _
      · rename_i same
        rw [same] at careful
        split at fired
        · rename_i call obj called stands
          obtain rfl := Option.some.inj fired
          have named := sound.called call called
          exact ((kept.pop top).deliver sound.started
            (fun other traced => Option.some.inj
              ((kept.current _ other traced named.2).symm.trans stands))
            (fun _ => stands) sound.waits careful).keep (named.1 ▸ mem_cons_self)
        · cases fired
          exact kept.pop top

def left (graph : Graph) (state : State) : Finset Path :=
  graph.files.filter fun path => state.registry path = none

/-- What the running code still has to do. -/
def State.work (state : State) : Nat := (state.stack.map fun frame => frame.rest.length + 1).sum

theorem left_mono {next : State}
    (grows : ∀ path, next.registry path = none → state.registry path = none) :
    left graph next ⊆ left graph state := by
  intro path member
  rw [left, Finset.mem_filter] at *
  exact ⟨member.1, grows path member.2⟩

theorem update_grows (absent : Function.update state.registry file (some obj) path = none) :
    state.registry path = none := by
  by_cases same : path = file
  · subst same
    rw [update_self] at absent
    cases absent
  · rwa [update_of_ne same] at absent

theorem deliver_grows {state : State} (path : Path)
    (absent : (state.deliver path target obj).registry file = none) :
    state.registry file = none := by
  cases target with
  | none => exact absent
  | some _ => exact update_grows absent

theorem require_works (call : Path × Text) (target : Option Path) :
    (left graph (ojRequire graph state call target)).card < (left graph state).card ∨
      left graph (ojRequire graph state call target) ⊆ left graph state ∧
        (ojRequire graph state call target).stack = state.stack := by
  simp only [ojRequire]
  split
  · exact .inr ⟨left_mono fun _ => deliver_grows _, rfl⟩
  · split
    · exact .inr ⟨left_mono fun _ absent =>
        deliver_grows (graph.resolve call.1 call.2) absent, rfl⟩
    · split
      · exact .inr ⟨left_mono fun _ absent =>
          deliver_grows (graph.resolve call.1 call.2) absent, rfl⟩
      · rename_i absent
        refine .inl (Finset.card_lt_card ((Finset.ssubset_iff_of_subset
          (left_mono fun _ => update_grows)).mpr ⟨graph.resolve call.1 call.2, ?_, ?_⟩))
        · exact Finset.mem_filter.mpr ⟨graph.closed _ _, absent⟩
        · intro member
          have absent := (Finset.mem_filter.mp member).2
          simp at absent

theorem tick_some (running : state.stack ≠ []) : ∃ next, step graph state .tick = some next := by
  simp only [step]
  split
  · exact absurd ‹_› running
  · split
    · exact ⟨_, rfl⟩
    · exact ⟨_, rfl⟩
    · split <;> exact ⟨_, rfl⟩

/-- Code that goes on starts a new file or has less to do. -/
theorem tick_works {next : State} (fired : step graph state .tick = some next) :
    (left graph next).card < (left graph state).card ∨
      left graph next ⊆ left graph state ∧ next.work < state.work := by
  simp only [step] at fired
  split at fired
  · cases fired
  · rename_i frame below top
    split at fired
    · rename_i same
      obtain rfl := Option.some.inj fired
      rcases require_works _ _ with fewer | ⟨kept, stack⟩
      · exact .inl fewer
      · exact .inr ⟨kept, by rw [State.work, stack]; simp [State.work, top, same]⟩
    · rename_i same
      obtain rfl := Option.some.inj fired
      refine .inr ⟨left_mono fun path absent => ?_, by simp [State.work, top, same]⟩
      dsimp only at absent
      split at absent
      · exact update_grows absent
      · exact absent
    · rename_i same
      split at fired <;> obtain rfl := Option.some.inj fired
      · exact .inr ⟨left_mono fun _ => deliver_grows _,
          by simp [State.work, State.deliver, State.keep, top, same]⟩
      · exact .inr ⟨subset_rfl, by simp [State.work, top, same]⟩

theorem ends (state : State) : Ends graph state := by
  cases top : state.stack with
  | nil => exact ⟨0, state, rfl, top⟩
  | cons frame below =>
    have running : state.stack ≠ [] := by simp [top]
    obtain ⟨next, fired⟩ : ∃ next, step graph state .tick = some next := tick_some running
    have smaller := tick_works fired
    obtain ⟨ticks, final, ran, done⟩ := ends next
    refine ⟨ticks + 1, final, ?_, done⟩
    rw [replicate_succ, System.run, System.runWhere, if_pos rfl]
    exact Option.bind_eq_some_iff.mpr ⟨next, fired, ran⟩
termination_by ((left graph state).card, state.work)
decreasing_by
  rcases smaller with fewer | ⟨kept, less⟩
  · exact .left _ _ fewer
  · rcases (Finset.card_le_card kept).lt_or_eq with fewer | same
    · exact .left _ _ fewer
    · rw [same]
      exact .right _ less

/-- `a.js` requires `b.js` and then replaces its exports, `b.js` requires `a.js`. -/
def ring : Graph where
  files := {"a.js".toList, "b.js".toList, "c.json".toList}
  resolve _ name :=
    if name = "./b".toList then "b.js".toList
    else if name = "./c".toList then "c.json".toList
    else "a.js".toList
  isJson path := path == "c.json".toList
  body path :=
    if path = "a.js".toList then [.require "./b".toList false, .replace]
    else if path = "b.js".toList then [.require "./a".toList false]
    else []
  closed _ name := by split_ifs <;> simp

end OnlyJs.Bridge.CommonJs
