import OnlyJs.Bridge.Blob.Reference

/-!
# The backend keeps to its reference

Each access to the disk is followed in what it shows of every key; from these the
operations, and from one step a whole run.
-/

namespace OnlyJs.Bridge.Blob

open Lib Option Function Lib.StepSystem

variable {other : String}

theorem ct_path_injective {key : String} (same : ctPath key = ctPath other) :
    key = other := by
  have chars := congrArg String.toList same
  simp only [ctPath, String.toList_append, List.append_cancel_right_eq] at chars
  exact String.toList_inj.mp chars

theorem filename_path_injective {key : String} (same : filenamePath key = filenamePath other) :
    key = other := by
  have chars := congrArg String.toList same
  simp only [filenamePath, String.toList_append, List.append_cancel_right_eq] at chars
  exact String.toList_inj.mp chars

theorem tmp_path_injective {config : Config} {id other : Nat}
    (same : config.tmpPath id = config.tmpPath other) : id = other := by
  have chars := congrArg String.toList same
  simp only [Config.tmpPath, String.toList_append, List.append_cancel_left_eq] at chars
  have digits : Nat.toDigits 10 id = Nat.toDigits 10 other := by
    simpa only [toString, Nat.toList_repr] using chars
  rw [← Nat.ofDigitChars_ten_toDigits (n := id), digits, Nat.ofDigitChars_ten_toDigits]

theorem ct_ne_filename (key other : String) : ctPath key ≠ filenamePath other := by
  intro same
  have last := congrArg (fun path => path.toList.getLast?) same
  simp [ctPath, filenamePath] at last

theorem tmp_path_last (config : Config) (id : Nat) :
    ∃ digit, (config.tmpPath id).toList.getLast? = some digit ∧ digit.isDigit = true := by
  have nonempty : Nat.toDigits 10 id ≠ [] := Nat.toDigits_ne_nil
  have shape : (config.tmpPath id).toList.getLast? = (Nat.toDigits 10 id).getLast? := by
    simp only [Config.tmpPath, toString, String.toList_append, Nat.toList_repr]
    exact List.getLast?_append_of_ne_nil _ nonempty
  refine ⟨(Nat.toDigits 10 id).getLast nonempty, ?_, ?_⟩
  · rw [shape, List.getLast?_eq_some_getLast nonempty]
  · exact Nat.isDigit_of_mem_toDigits (by omega) (by omega) (List.getLast_mem nonempty)

theorem ct_ne_tmp (config : Config) (key : String) (id : Nat) : ctPath key ≠ config.tmpPath id := by
  intro same
  obtain ⟨digit, last, isDigit⟩ := tmp_path_last config id
  rw [← same] at last
  simp only [ctPath] at last
  have ended : digit = 't' := by simpa using last.symm
  rw [ended] at isDigit
  cases isDigit

theorem filename_ne_tmp (config : Config) (key : String) (id : Nat) :
    filenamePath key ≠ config.tmpPath id := by
  intro same
  obtain ⟨digit, last, isDigit⟩ := tmp_path_last config id
  rw [← same] at last
  simp only [filenamePath] at last
  have ended : digit = 'e' := by simpa using last.symm
  rw [ended] at isDigit
  cases isDigit

theorem read_text (files : Files) (path : String) (text : Option String) :
    readToString (Function.update files path (text.map encodeText)) path = text := by
  cases text with
  | none => simp only [readToString, update_self, map_none, bind_none]
  | some text =>
    simp only [readToString, update_self, map_some, bind_some, encodeText,
      Utf8.decode_encode, if_true, String.ofList_toList]

theorem read_other (files : Files) {path : String} (content : Option Bytes) (apart : other ≠ path) :
    readToString (Function.update files path content) other = readToString files other := by
  simp only [readToString, update_of_ne apart]

theorem get_other (config : Config) (files : Files) {key path : String} (content : Option Bytes)
    (apart : fsPath config key ≠ some path) :
    get config (Function.update files path content) key = get config files key := by
  unfold get
  cases mapped : fsPath config key with
  | none => rfl
  | some own =>
    have different : own ≠ path := fun same => apart (by rw [mapped, same])
    simp only [bind_some, update_of_ne different]

section Views

variable {config : Config} {keys : Set String} (apart : Apart config keys)

include apart

variable {other : String}

theorem view_data {key path : String} (inside : key ∈ keys) (seen : other ∈ keys)
    (mapped : fsPath config key = some path) (files : Files) (content : Option Bytes) :
    view config (Function.update files path content) other =
      { view config files other with
        bytes := if other = key then content else (view config files other).bytes } := by
  have noCt : ctPath other ≠ path := fun same =>
    apart.ct key inside other seen (by rw [mapped, same])
  have noName : filenamePath other ≠ path := fun same =>
    apart.filename key inside other seen (by rw [mapped, same])
  apply View.ext
  · dsimp only [view]
    split
    · next same =>
        subst same
        simp only [get, mapped, bind_some, update_self]
    · next different =>
        apply get_other
        intro same
        exact different (apart.distinct other seen key inside (by rw [same, mapped]))
  · simp only [view, contentType, read_other files content noCt]
  · simp only [view, filename, read_other files content noName]

section

variable {key : String} (inside : key ∈ keys) (seen : other ∈ keys) (files : Files)
include inside seen files

theorem view_ct (text : Option String) :
    view config (Function.update files (ctPath key) (text.map encodeText)) other =
      { view config files other with
        contentType :=
          if other = key then effectiveType key text
          else (view config files other).contentType } := by
  apply View.ext
  · exact get_other config files _ (apart.ct other seen key inside)
  · dsimp only [view]
    split
    · next same =>
        subst same
        simp only [contentType, read_text, effectiveType]
    · next different =>
        have elsewhere : ctPath other ≠ ctPath key := fun same =>
          different (ct_path_injective same)
        simp only [contentType, read_other files _ elsewhere]
  · simp only [view, filename, read_other files _ (ct_ne_filename key other).symm]

theorem view_filename (text : Option String) :
    view config (Function.update files (filenamePath key) (text.map encodeText)) other =
      { view config files other with
        filename :=
          if other = key then effectiveName text else (view config files other).filename } := by
  apply View.ext
  · exact get_other config files _ (apart.filename other seen key inside)
  · simp only [view, contentType, read_other files _ (ct_ne_filename other key)]
  · dsimp only [view]
    split
    · next same =>
        subst same
        simp only [filename, read_text, effectiveName]
    · next different =>
        have elsewhere : filenamePath other ≠ filenamePath key := fun same =>
          different (filename_path_injective same)
        simp only [filename, read_other files _ elsewhere]

end

theorem view_tmp (seen : other ∈ keys) (files : Files) (id : Nat) (content : Option Bytes) :
    view config (Function.update files (config.tmpPath id) content) other =
      view config files other := by
  apply View.ext
  · exact get_other config files content (apart.uploads other seen id)
  · simp only [view, contentType, read_other files content (ct_ne_tmp config other id)]
  · simp only [view, filename, read_other files content (filename_ne_tmp config other id)]

end Views

theorem save_text_works (files : Files) (path : String) (text : Option String) {faults : Faults}
    (works : Works faults) :
    saveText files path text faults =
      (true, Function.update files path (text.map encodeText)) := by
  cases text with
  | none => simp only [saveText, works 0, removeFile, map_none]
  | some text =>
    simp only [saveText, works 0, works 1, writeFile, map_some, isSome_none,
      Bool.false_eq_true, if_false]

theorem effective_type_stored (key : String) (given : Option String) :
    effectiveType key (given.filter fun given => inferContentType key ≠ some given) =
      effectiveType key given := by
  cases given with
  | none => rfl
  | some given =>
    by_cases inferred : inferContentType key = some given
    · by_cases empty : given = "" <;> simp [effectiveType, inferred, empty, Option.filter]
    · simp [inferred, Option.filter]

theorem write_harmless {files : Files} {path : String} {fault : Option (Option Bytes)}
    (content : Bytes) (harmless : Harmless files path fault) :
    writeFile files path content fault = (false, files) ∨
      (fault = none ∧ writeFile files path content fault =
        (true, Function.update files path (some content))) := by
  cases fault with
  | none => exact .inr ⟨rfl, rfl⟩
  | some left =>
    left
    rw [writeFile, harmless left rfl, update_eq_self]

def Shows (config : Config) (keys : Set String) (files : Files) (reference : Reference) : Prop :=
  ∀ key ∈ keys, view config files key = reference.view key

def KeepsTemporary (config : Config) (files after : Files) : Prop :=
  ∀ id, after (config.tmpPath id) = files (config.tmpPath id)

/-- The outcome of an operation whose success means the given reference. -/
def Follows (config : Config) (keys : Set String) (files : Files) (reference committed : Reference)
    (outcome : Bool × Files) : Prop :=
  KeepsTemporary config files outcome.2 ∧
    Shows config keys outcome.2 (if outcome.1 then committed else reference)

theorem view_store (reference : Reference) (key : String) (entry : Option Entry) (other : String) :
    (reference.store key entry).view other =
      if other = key then viewOf key entry else reference.view other := by
  by_cases same : other = key
  · subst same
    simp only [Reference.view, Reference.store, update_self, if_true]
  · simp only [Reference.view, Reference.store, update_of_ne same, if_neg same]

theorem view_store_self (reference : Reference) (key other : String) :
    (reference.store key (reference.entries key)).view other = reference.view other := by
  rw [view_store]
  split
  · next same => rw [same, Reference.view]
  · rfl

section Operations

variable {config : Config} {keys : Set String}

variable {files : Files} {reference : Reference}

theorem follows_unchanged (committed : Reference) (shown : Shows config keys files reference) :
    Follows config keys files reference committed (false, files) :=
  ⟨fun _ => rfl, shown⟩

theorem follows_same (committed : Reference) (shown : Shows config keys files reference)
    (same : ∀ other, committed.view other = reference.view other) :
    Follows config keys files reference committed (true, files) := by
  refine ⟨fun _ => rfl, ?_⟩
  intro other seen
  rw [if_pos rfl, same, shown other seen]

variable (apart : Apart config keys)

include apart

variable {key : String}

theorem data_kept {path : String} (inside : key ∈ keys) (mapped : fsPath config key = some path)
    (files : Files) (content : Option Bytes) :
    KeepsTemporary config files (Function.update files path content) := by
  intro id
  apply update_of_ne
  intro same
  exact apart.uploads key inside id (by rw [mapped, same])

omit apart in
theorem ct_kept (key : String) (files : Files) (content : Option Bytes) :
    KeepsTemporary config files (Function.update files (ctPath key) content) := by
  intro id
  exact update_of_ne (ct_ne_tmp config key id).symm _ _

omit apart in
theorem filename_kept (key : String) (files : Files) (content : Option Bytes) :
    KeepsTemporary config files (Function.update files (filenamePath key) content) := by
  intro id
  exact update_of_ne (filename_ne_tmp config key id).symm _ _

omit apart in
theorem kept_trans {middle after : Files} (first : KeepsTemporary config files middle)
    (second : KeepsTemporary config middle after) : KeepsTemporary config files after := by
  intro id
  rw [second id, first id]

variable {faults : Faults}

section

variable (shown : Shows config keys files reference) (inside : key ∈ keys)
include shown inside

theorem put_follows (replaces : Replaces reference key faults) (bytes : Bytes)
    (given : Option String) (fresh : Nat) :
    Follows config keys files reference (reference.commit fresh (.put key bytes given))
      (put config files key bytes given faults) := by
  obtain ⟨path, mapped⟩ := apart.mapped key inside
  simp only [put, mapped]
  cases first : faults 0 with
  | some left => exact follows_unchanged _ shown
  | none =>
    obtain ⟨works, unnamed⟩ := replaces first
    simp only [isSome_none, Bool.false_eq_true, if_false, saveContentType,
      save_text_works _ _ _ works]
    refine ⟨kept_trans (data_kept apart inside mapped files _) (ct_kept key _ _), ?_⟩
    intro other seen
    rw [view_ct apart inside seen, view_data apart inside seen mapped, shown other seen,
      effective_type_stored]
    simp only [if_true, Reference.commit, view_store]
    by_cases same : other = key
    · subst same
      simp only [if_true, viewOf, unnamed]
    · simp only [if_neg same]

theorem del_follows (replaces : Replaces reference key faults) (fresh : Nat) :
    Follows config keys files reference (reference.commit fresh (.del key))
      (del config files key faults) := by
  obtain ⟨path, mapped⟩ := apart.mapped key inside
  simp only [del, mapped]
  cases first : faults 0 with
  | some left => exact follows_unchanged _ shown
  | none =>
    obtain ⟨works, unnamed⟩ := replaces first
    have removed : faults 1 = none := works 0
    simp only [isSome_none, Bool.false_eq_true, if_false, removed, removeFile]
    refine ⟨kept_trans (data_kept apart inside mapped files _) (ct_kept key _ _), ?_⟩
    intro other seen
    have text : (none : Option Bytes) = (none : Option String).map encodeText := rfl
    rw [text, view_ct apart inside seen, view_data apart inside seen mapped, shown other seen]
    simp only [if_true, Reference.commit, view_store]
    by_cases same : other = key
    · subst same
      simp only [if_true, viewOf, unnamed, map_none, effectiveType, filter_none,
        none_or]
    · simp only [if_neg same]

theorem set_filename_follows (stored : (reference.entries key).isSome = true)
    (harmless : faults 0 = none → Harmless files (filenamePath key) (faults 1)) (name : String)
    (fresh : Nat) :
    Follows config keys files reference (reference.commit fresh (.setFilename key name))
      (setFilename files key name faults) := by
  obtain ⟨entry, found⟩ := isSome_iff_exists.mp stored
  unfold setFilename
  split
  · cases first : faults 0 with
    | some left =>
      simp only [saveText, first]
      exact follows_unchanged _ shown
    | none =>
      simp only [saveText, first, isSome_none, Bool.false_eq_true, if_false]
      rcases write_harmless (encodeText name) (harmless first) with refused | ⟨_, written⟩
      · rw [refused]
        exact follows_unchanged _ shown
      · rw [written]
        refine ⟨filename_kept key files _, ?_⟩
        intro other seen
        have text : some (encodeText name) = (some name).map encodeText := rfl
        rw [text, view_filename apart inside seen, shown other seen]
        simp only [if_true, Reference.commit, found, view_store]
        by_cases same : other = key
        · subst same
          simp only [if_true, Reference.view, found, viewOf]
        · simp only [if_neg same]
  · exact follows_unchanged _ shown

end

variable {dst src : String}

omit apart in
theorem carried_type {stored : Option String}
    (carries : stored.or (inferContentType src) ≠ inferContentType src ∨
      inferContentType src = inferContentType dst) :
    stored.or (inferContentType dst) = stored.or (inferContentType src) := by
  cases stored with
  | some stored => rfl
  | none =>
    rcases carries with differs | same
    · exact absurd rfl differs
    · simp only [none_or, same]

omit apart in
theorem effective_filtered (key : String) (given : Option String) :
    effectiveType key (given.filter (· ≠ "")) =
      (given.filter (· ≠ "")).or (inferContentType key) := by
  simp only [effectiveType, filter_filter, Bool.and_self]

omit apart in
theorem shown_bytes {path : String} (shown : Shows config keys files reference)
    (inside : key ∈ keys) (mapped : fsPath config key = some path) :
    files path = (reference.entries key).map Entry.bytes := by
  have bytes := congrArg View.bytes (shown key inside)
  simp only [view, get, mapped, bind_some, Reference.view] at bytes
  rw [bytes]
  cases reference.entries key <;> rfl

omit apart in
theorem shown_entry {entry : Entry} (shown : Shows config keys files reference)
    (inside : key ∈ keys) (found : reference.entries key = some entry) :
    ((readToString files (ctPath key)).filter (· ≠ "")).or (inferContentType key) =
        entry.contentType ∧
      (reference.view key).filename = entry.filename := by
  refine ⟨?_, ?_⟩
  · have type := congrArg View.contentType (shown key inside)
    simpa only [view, contentType, Reference.view, found, viewOf] using type
  · simp only [Reference.view, found, viewOf]

theorem carried_ct {after : Files} {entry : Entry} (shown : Shows config keys files reference)
    (source : src ∈ keys) (target : dst ∈ keys) (found : reference.entries src = some entry)
    (kept : after (ctPath src) = files (ctPath src))
    (carries : entry.contentType ≠ inferContentType src ∨
      inferContentType src = inferContentType dst)
    (works : Works faults) :
    ∃ carried, carryCt after src dst faults = (true, carried) ∧
      KeepsTemporary config after carried ∧
      ∀ other ∈ keys, view config carried other =
        { view config after other with
          contentType :=
            if other = dst then entry.contentType else (view config after other).contentType } := by
  have type := (shown_entry shown source found).1
  have read : readToString after (ctPath src) = readToString files (ctPath src) := by
    simp only [readToString, kept]
  refine ⟨_, save_text_works _ _ _ works, ct_kept dst _ _, ?_⟩
  intro other seen
  rw [view_ct apart target seen, read, effective_type_stored, effective_filtered, carried_type,
    type]
  rw [type]
  exact carries

theorem copy_follows {state : State} (shown : Shows config keys state.disk.files state.reference)
    (source : src ∈ keys) (target : dst ∈ keys)
    (transfers : Transfers config state src dst faults
      ((state.reference.view src).filename = (state.reference.view dst).filename))
    (fresh : Nat) :
    Follows config keys state.disk.files state.reference
      (state.reference.commit fresh (.copy src dst))
      (copy config state.disk.files src dst faults) := by
  obtain ⟨srcPath, srcMapped⟩ := apart.mapped src source
  obtain ⟨dstPath, dstMapped⟩ := apart.mapped dst target
  have held := shown_bytes shown source srcMapped
  simp only [copy, srcMapped, dstMapped, held, Reference.commit]
  by_cases same : srcPath = dstPath
  · have alike : src = dst :=
      apart.distinct src source dst target (by rw [srcMapped, dstMapped, same])
    subst alike
    rw [if_pos same]
    apply follows_same _ shown
    intro other
    cases found : state.reference.entries src with
    | none => rfl
    | some entry =>
      dsimp only
      rw [← found, view_store_self]
  · have distinct : src ≠ dst := by
      intro alike
      rw [alike, dstMapped] at srcMapped
      exact same (Option.some.inj srcMapped).symm
    rw [if_neg same]
    cases first : faults 0 with
    | some left => exact follows_unchanged _ shown
    | none =>
      simp only [isSome_none, Bool.false_eq_true, if_false]
      cases found : state.reference.entries src with
      | none => exact follows_unchanged _ shown
      | some entry =>
        obtain ⟨harmless, rest⟩ := transfers distinct first entry found
        simp only [map_some]
        rcases write_harmless entry.bytes (harmless dstPath dstMapped) with
          refused | ⟨second, written⟩
        · rw [refused]
          exact follows_unchanged _ shown
        · rw [written]
          obtain ⟨works, named, carries⟩ := rest second
          have kept : Function.update state.disk.files dstPath (some entry.bytes)
              (ctPath src) = state.disk.files (ctPath src) := by
            apply update_of_ne
            intro same
            exact apart.ct dst target src source (by rw [dstMapped, same])
          obtain ⟨carried, ran, temporary, views⟩ :=
            carried_ct apart shown source target found kept carries works
          dsimp only
          rw [ran]
          refine ⟨kept_trans (data_kept apart target dstMapped _ _) temporary, ?_⟩
          intro other seen
          rw [views other seen, view_data apart target seen dstMapped, shown other seen,
            if_pos rfl, view_store]
          by_cases same : other = dst
          · subst same
            rw [(shown_entry shown source found).2] at named
            simp only [if_true, viewOf, named]
          · simp only [if_neg same]

omit apart in
theorem relocate_cases {source target : String} (bytes : Bytes) (different : source ≠ target)
    (harmless : Harmless files target (faults 0)) :
    relocate files source target bytes faults = (false, files) ∨
      (faults 0 = none ∧ (faults 1 = none → relocate files source target bytes faults =
        (true, Function.update (Function.update files source none) target (some bytes)))) := by
  unfold relocate
  split
  · cases first : faults 0 with
    | some left =>
      left
      rfl
    | none =>
      right
      exact ⟨rfl, fun _ => rfl⟩
  · rcases write_harmless bytes harmless with refused | ⟨first, written⟩
    · left
      rw [refused]
    · right
      refine ⟨first, ?_⟩
      intro second
      rw [written, second, update_comm different]
      rfl

theorem move_follows {state : State} (shown : Shows config keys state.disk.files state.reference)
    (source : src ∈ keys) (target : dst ∈ keys)
    (transfers : Transfers config state src dst faults
      ((state.reference.view src).filename = none ∧ (state.reference.view dst).filename = none))
    (fresh : Nat) :
    Follows config keys state.disk.files state.reference
      (state.reference.commit fresh (.moveTo src dst))
      (moveTo config state.disk.files src dst faults) := by
  obtain ⟨srcPath, srcMapped⟩ := apart.mapped src source
  obtain ⟨dstPath, dstMapped⟩ := apart.mapped dst target
  have held := shown_bytes shown source srcMapped
  simp only [moveTo, srcMapped, dstMapped, held, Reference.commit]
  by_cases same : srcPath = dstPath
  · have alike : src = dst :=
      apart.distinct src source dst target (by rw [srcMapped, dstMapped, same])
    subst alike
    rw [if_pos same]
    apply follows_same _ shown
    intro other
    cases found : state.reference.entries src with
    | none => rfl
    | some entry =>
      rw [view_store, view_store, ← found]
      split
      · next here => rw [here, Reference.view]
      · rfl
  · have distinct : src ≠ dst := by
      intro alike
      rw [alike, dstMapped] at srcMapped
      exact same (Option.some.inj srcMapped).symm
    rw [if_neg same]
    cases first : faults 0 with
    | some left => exact follows_unchanged _ shown
    | none =>
      simp only [isSome_none, Bool.false_eq_true, if_false]
      cases found : state.reference.entries src with
      | none => exact follows_unchanged _ shown
      | some entry =>
        obtain ⟨harmless, rest⟩ := transfers distinct first entry found
        have atStart : Harmless state.disk.files dstPath ((faults.from 1) 0) :=
          harmless dstPath dstMapped
        simp only [map_some]
        rcases relocate_cases entry.bytes same atStart with refused | ⟨second, moved⟩
        · rw [refused]
          exact follows_unchanged _ shown
        · obtain ⟨works, ⟨unnamed, free⟩, carries⟩ := rest second
          rw [moved (works 0)]
          have kept : Function.update (Function.update state.disk.files srcPath none) dstPath
              (some entry.bytes) (ctPath src) = state.disk.files (ctPath src) := by
            rw [update_of_ne, update_of_ne]
            · intro clash
              exact apart.ct src source src source (by rw [srcMapped, clash])
            · intro clash
              exact apart.ct dst target src source (by rw [dstMapped, clash])
          have later : Works (faults.from 3) := fun index => by
            have shifted := works (index + 1)
            rwa [Faults.from, Nat.add_comm index, ← Nat.add_assoc] at shifted
          obtain ⟨carried, ran, temporary, views⟩ :=
            carried_ct apart shown source target found kept carries later
          have removed : faults 5 = none := works 3
          dsimp only
          rw [ran]
          dsimp only
          rw [removed, removeFile]
          refine ⟨kept_trans (kept_trans (kept_trans (data_kept apart source srcMapped _ _)
            (data_kept apart target dstMapped _ _)) temporary) (ct_kept src _ _), ?_⟩
          intro other seen
          have text : (none : Option Bytes) = (none : Option String).map encodeText := rfl
          rw [text, view_ct apart source seen, views other seen,
            view_data apart target seen dstMapped,
            view_data apart source seen srcMapped, shown other seen, if_pos rfl, view_store,
            view_store]
          by_cases here : other = dst
          · subst here
            rw [(shown_entry shown source found).2] at unnamed
            simp only [if_true, if_neg distinct.symm, viewOf, free, unnamed]
          · simp only [if_neg here]
            by_cases there : other = src
            · subst there
              simp only [if_true, viewOf, unnamed, effectiveType, filter_none,
                none_or]
            · simp only [if_neg there]

end Operations

def Stream.session (stream : Stream) : Session where
  key := stream.key
  contentType := stream.contentType
  filename := stream.filename

structure Agrees (config : Config) (keys : Set String) (state : State) : Prop where
  shown : Shows config keys state.disk.files state.reference
  sessions : ∀ id, state.disk.uploads id = (state.reference.streams id).map Stream.session
  written : ∀ id stream bytes, state.reference.streams id = some stream →
    stream.bytes = some bytes → state.disk.files (config.tmpPath id) = some bytes
  inside : ∀ id stream, state.reference.streams id = some stream → stream.key ∈ keys
  numbered : ∀ id stream, state.reference.streams id = some stream → id ≤ state.disk.nextUpload

section Streams

variable {config : Config} {keys : Set String}

theorem agrees_initial : Agrees config keys initial where
  shown := by
    intro key _
    apply View.ext
    · simp only [view, get]
      cases fsPath config key <;> rfl
    · rfl
    · rfl
  sessions := fun _ => rfl
  written := fun _ _ _ found => by cases found
  inside := fun _ _ found => by cases found
  numbered := fun _ _ found => by cases found

variable {state : State}

theorem agrees_of_follows {committed : Reference} {outcome : Bool × Files}
    (agrees : Agrees config keys state)
    (follows : Follows config keys state.disk.files state.reference committed outcome)
    (streams : committed.streams = state.reference.streams) :
    Agrees config keys {
      disk := { state.disk with files := outcome.2 }
      reference := if outcome.1 then committed else state.reference } := by
  obtain ⟨kept, shown⟩ := follows
  have alike : (if outcome.1 then committed else state.reference).streams =
      state.reference.streams := by
    split
    · exact streams
    · rfl
  refine { shown, sessions := ?_, written := ?_, inside := ?_, numbered := ?_ }
  · simp only [alike]
    exact agrees.sessions
  · simp only [alike]
    intro id stream bytes found content
    rw [kept id]
    exact agrees.written id stream bytes found content
  · simp only [alike]
    exact agrees.inside
  · simp only [alike]
    exact agrees.numbered

/-- An operation on the stream `id` alone, which may bring its bytes to a key. -/
theorem agrees_stream {id : Nat} {files : Files} {next : Nat} {entries : String → Option Entry}
    (stream : Option Stream) (agrees : Agrees config keys state)
    (kept : ∀ other, other ≠ id → files (config.tmpPath other) =
      state.disk.files (config.tmpPath other))
    (shown : ∀ key ∈ keys, view config files key = viewOf key (entries key))
    (later : state.disk.nextUpload ≤ next)
    (own : ∀ own ∈ stream, own.key ∈ keys ∧ id ≤ next ∧ ∀ bytes, own.bytes = some bytes →
      files (config.tmpPath id) = some bytes) :
    Agrees config keys {
      disk := {
        files
        uploads := Function.update state.disk.uploads id (stream.map Stream.session)
        nextUpload := next }
      reference := { entries, streams := Function.update state.reference.streams id stream } } := by
  refine { shown, sessions := ?_, written := ?_, inside := ?_, numbered := ?_ }
  · intro other
    by_cases same : other = id
    · subst same
      simp only [update_self]
    · simp only [update_of_ne same]
      exact agrees.sessions other
  · intro other stream bytes found content
    by_cases same : other = id
    · subst same
      simp only [update_self] at found
      exact (own stream found).2.2 bytes content
    · simp only [update_of_ne same] at found
      exact (kept other same).trans (agrees.written other stream bytes found content)
  · intro other stream found
    by_cases same : other = id
    · subst same
      simp only [update_self] at found
      exact (own stream found).1
    · simp only [update_of_ne same] at found
      exact agrees.inside other stream found
  · intro other stream found
    by_cases same : other = id
    · subst same
      simp only [update_self] at found
      exact (own stream found).2.1
    · simp only [update_of_ne same] at found
      exact Nat.le_trans (agrees.numbered other stream found) later

theorem tmp_other (files : Files) {id other : Nat} (content : Option Bytes) (apart : other ≠ id) :
    Function.update files (config.tmpPath id) content (config.tmpPath other) =
      files (config.tmpPath other) := by
  apply update_of_ne
  intro same
  exact apart (tmp_path_injective same)

variable (apart : Apart config keys)

include apart

variable (id : Nat)

theorem agrees_tmp {next : Nat} (stream : Option Stream) (content : Option Bytes)
    (agrees : Agrees config keys state) (later : state.disk.nextUpload ≤ next)
    (own : ∀ own ∈ stream, own.key ∈ keys ∧ id ≤ next ∧ ∀ bytes, own.bytes = some bytes →
      content = some bytes) :
    Agrees config keys {
      disk := {
        files := Function.update state.disk.files (config.tmpPath id) content
        uploads := Function.update state.disk.uploads id (stream.map Stream.session)
        nextUpload := next }
      reference := state.reference.stream id stream } := by
  apply agrees_stream stream agrees
  · intro other different
    exact tmp_other _ content different
  · intro key inside
    rw [view_tmp apart inside]
    exact agrees.shown key inside
  · exact later
  · intro stream given
    obtain ⟨inside, known, bytes⟩ := own stream given
    refine ⟨inside, known, ?_⟩
    rw [update_self]
    exact bytes

theorem open_agrees {key : String} (given : Option String) (faults : Faults)
    (agrees : Agrees config keys state) (inside : key ∈ keys) :
    Agrees config keys (step config state ⟨.open key given, faults⟩) := by
  have fresh : state.reference.streams (state.disk.nextUpload + 1) = none := by
    cases found : state.reference.streams (state.disk.nextUpload + 1) with
    | none => rfl
    | some stream =>
      have bound := agrees.numbered _ stream found
      omega
  have unused : state.disk.uploads (state.disk.nextUpload + 1) = none := by
    rw [agrees.sessions, fresh]
    rfl
  unfold step apply
  by_cases valid : validKey key = true
  · simp only [valid, openUpload]
    cases first : faults 0 with
    | none =>
      let stream : Stream := { key, contentType := given, filename := none, bytes := some [] }
      have started := agrees_tmp apart (state.disk.nextUpload + 1) (some stream)
        (some []) agrees (Nat.le_succ _) (by
          intro own same
          cases same
          exact ⟨inside, Nat.le_refl _, fun bytes content => content⟩)
      exact started
    | some left =>
      have untouched := agrees_tmp apart (state.disk.nextUpload + 1) none left agrees
        (Nat.le_succ _) (fun own absent => by cases absent)
      rw [map_none, ← unused, update_eq_self, Reference.stream, ← fresh,
        update_eq_self] at untouched
      exact untouched
  · simp only [valid]
    exact agrees

omit apart in
theorem no_session {id : Nat} (agrees : Agrees config keys state) :
    state.disk.uploads id = none ↔ state.reference.streams id = none := by
  rw [agrees.sessions, map_eq_none_iff]

theorem filename_agrees (name : String) (faults : Faults) (agrees : Agrees config keys state) :
    Agrees config keys (step config state ⟨.filename id name, faults⟩) := by
  unfold step apply
  cases found : state.reference.streams id with
  | none =>
    simp only [(no_session agrees).mpr found]
    exact agrees
  | some stream =>
    have session : state.disk.uploads id = some stream.session := by
      rw [agrees.sessions, found]
      rfl
    have named := agrees_tmp apart id (some { stream with filename := some name })
      (state.disk.files (config.tmpPath id)) agrees (Nat.le_refl _) (by
        intro own same
        cases same
        exact ⟨agrees.inside id stream found, agrees.numbered id stream found,
          fun bytes content => agrees.written id stream bytes found content⟩)
    simp only [session, Reference.commit, found]
    rw [update_eq_self] at named
    exact named

theorem chunk_agrees (more : Bytes) (faults : Faults) (agrees : Agrees config keys state) :
    Agrees config keys (step config state ⟨.chunk id more, faults⟩) := by
  unfold step apply
  cases found : state.reference.streams id with
  | none =>
    simp only [(no_session agrees).mpr found]
    simp only [Reference.refuse, found]
    exact agrees
  | some stream =>
    have session : state.disk.uploads id = some stream.session := by
      rw [agrees.sessions, found]
      rfl
    have kept : Function.update state.disk.uploads id (some stream.session) =
        state.disk.uploads := by
      rw [← session, update_eq_self]
    simp only [session, onFiles]
    cases first : faults 0 with
    | none =>
      have grown := agrees_tmp apart id
        (some { stream with bytes := stream.bytes.map (· ++ more) })
        (some ((state.disk.files (config.tmpPath id)).getD [] ++ more)) agrees
        (Nat.le_refl _) (by
          intro own same
          cases same
          refine ⟨agrees.inside id stream found, agrees.numbered id stream found, ?_⟩
          intro bytes content
          obtain ⟨before, held, joined⟩ := map_eq_some_iff.mp content
          rw [agrees.written id stream before found held, ← joined]
          rfl)
      simp only [Reference.commit, found]
      exact kept ▸ grown
    | some left =>
      have broken := agrees_tmp apart id (some { stream with bytes := none }) left agrees
        (Nat.le_refl _) (by
          intro own same
          cases same
          exact ⟨agrees.inside id stream found, agrees.numbered id stream found,
            fun bytes content => by cases content⟩)
      simp only [Reference.refuse, found]
      exact kept ▸ broken

theorem dropped_agrees (faults : Faults) (agrees : Agrees config keys state) :
    Agrees config keys {
      disk := {
        files := dropSession config state.disk.files id faults
        uploads := Function.update state.disk.uploads id none
        nextUpload := state.disk.nextUpload }
      reference := state.reference.stream id none } := by
  have dropped := fun content => agrees_tmp apart id none content agrees (Nat.le_refl _)
    (fun own absent => by cases absent)
  unfold dropSession
  cases faults 0 with
  | none => exact dropped none
  | some left =>
    have unchanged := dropped (state.disk.files (config.tmpPath id))
    rw [update_eq_self] at unchanged
    exact unchanged

theorem abort_agrees (faults : Faults) (agrees : Agrees config keys state) :
    Agrees config keys (step config state ⟨.abort id, faults⟩) := by
  unfold step apply
  cases found : state.reference.streams id with
  | none =>
    have absent := (no_session agrees).mpr found
    simp only [absent, Reference.commit, Reference.stream]
    rw [← found, update_eq_self]
    exact agrees
  | some stream =>
    have session : state.disk.uploads id = some stream.session := by
      rw [agrees.sessions, found]
      rfl
    simp only [session]
    exact dropped_agrees apart id faults agrees

def finished (config : Config) (files : Files) (id : Nat) (session : Session) (bytes : Bytes) :
    Files :=
  let moved := Function.update (Function.update files (config.tmpPath id) none) session.key
    (some bytes)
  let stored := session.contentType.filter fun given => inferContentType session.key ≠ some given
  Function.update (Function.update moved (ctPath session.key) (stored.map encodeText))
    (filenamePath session.key) (session.filename.map encodeText)

omit apart in
theorem finish_cases (files : Files) (id : Nat) (session : Session) (faults : Faults) :
    finish config files id session faults =
        (false, dropSession config files id (faults.from 4)) ∨
      ∃ bytes, files (config.tmpPath id) = some bytes ∧ (∀ index < 4, faults index = none) ∧
        (Works (faults.from 4) →
          finish config files id session faults =
            (true, finished config files id session bytes)) := by
  unfold finish
  split
  · next bytes held first second third fourth =>
      right
      refine ⟨bytes, held, ?_, ?_⟩
      · intro index small
        match index, small with
        | 0, _ => exact first
        | 1, _ => exact second
        | 2, _ => exact third
        | 3, _ => exact fourth
      · intro works
        have later : Works (faults.from 6) := fun index => by
          have shifted := works (index + 2)
          rwa [Faults.from, Nat.add_comm index, ← Nat.add_assoc] at shifted
        simp only [saveContentType, save_text_works _ _ _ works, save_text_works _ _ _ later,
          finished]
  · left
    rfl

theorem finished_kept (session : Session) (inside : session.key ∈ keys)
    (mapped : fsPath config session.key = some session.key) (files : Files) (id : Nat)
    (bytes : Bytes) :
    KeepsTemporary config (Function.update files (config.tmpPath id) none)
      (finished config files id session bytes) :=
  kept_trans (kept_trans (data_kept apart inside mapped _ _) (ct_kept session.key _ _))
    (filename_kept session.key _ _)

theorem finish_agrees {faults : Faults} (agrees : Agrees config keys state)
    (finishes : ∀ stream, state.reference.streams id = some stream →
      Finishes config stream faults) :
    Agrees config keys (step config state ⟨.finish id, faults⟩) := by
  unfold step apply
  cases found : state.reference.streams id with
  | none =>
    simp only [(no_session agrees).mpr found, Reference.refuse,
      Reference.stream]
    rw [← found, update_eq_self]
    exact agrees
  | some stream =>
    have session : state.disk.uploads id = some stream.session := by
      rw [agrees.sessions, found]
      rfl
    simp only [session, onFiles]
    rcases finish_cases state.disk.files id stream.session faults with
      refused | ⟨bytes, held, through, ran⟩
    · rw [refused]
      exact dropped_agrees apart id (faults.from 4) agrees
    · obtain ⟨whole, mapped, works⟩ := finishes stream found through
      obtain ⟨content, given⟩ := isSome_iff_exists.mp whole
      have same : content = bytes := by
        have kept := agrees.written id stream content found given
        exact Option.some.inj (kept.symm.trans held)
      subst same
      have inside := agrees.inside id stream found
      simp only [ran works, Reference.commit, found]
      apply agrees_stream none agrees
      · intro other different
        have keyed := finished_kept apart stream.session inside mapped state.disk.files id content
        rw [keyed other, tmp_other _ none different]
      · intro key seen
        have stored := view_store state.reference stream.key
          (stream.bytes.map fun bytes => {
            bytes
            contentType := effectiveType stream.key stream.contentType
            filename := effectiveName stream.filename }) key
        refine Eq.trans ?_ stored.symm
        rw [finished, Stream.session, view_filename apart inside seen,
          view_ct apart inside seen, view_data apart inside seen mapped, view_tmp apart seen,
          effective_type_stored, agrees.shown key seen, given]
        by_cases same : key = stream.key
        · subst same
          simp only [if_true, map_some, viewOf]
        · simp only [if_neg same]
      · exact Nat.le_refl _
      · intro own absent
        cases absent

end Streams

section Runs

variable {config : Config} {keys : Set String}

theorem step_agrees (apart : Apart config keys) {state : State} {label : Label}
    (agrees : Agrees config keys state) (orderly : Orderly config keys state label) :
    Agrees config keys (step config state label) := by
  obtain ⟨operation, faults⟩ := label
  have shown := agrees.shown
  cases operation with
  | put key bytes given =>
    obtain ⟨inside, replaces⟩ := orderly
    exact agrees_of_follows agrees
      (put_follows apart shown inside replaces bytes given (state.disk.nextUpload + 1)) rfl
  | del key =>
    obtain ⟨inside, replaces⟩ := orderly
    exact agrees_of_follows agrees
      (del_follows apart shown inside replaces (state.disk.nextUpload + 1)) rfl
  | setFilename key name =>
    obtain ⟨inside, stored, harmless⟩ := orderly
    have follows := set_filename_follows apart shown inside stored harmless name
      (state.disk.nextUpload + 1)
    apply agrees_of_follows agrees follows
    dsimp only [Reference.commit]
    cases state.reference.entries key <;> rfl
  | copy src dst =>
    obtain ⟨source, target, transfers⟩ := orderly
    have follows := copy_follows apart shown source target transfers (state.disk.nextUpload + 1)
    apply agrees_of_follows agrees follows
    dsimp only [Reference.commit]
    cases state.reference.entries src <;> rfl
  | moveTo src dst =>
    obtain ⟨source, target, transfers⟩ := orderly
    have follows := move_follows apart shown source target transfers (state.disk.nextUpload + 1)
    apply agrees_of_follows agrees follows
    dsimp only [Reference.commit]
    cases state.reference.entries src <;> rfl
  | «open» key given => exact open_agrees apart given faults agrees orderly
  | filename id name => exact filename_agrees apart id name faults agrees
  | chunk id more => exact chunk_agrees apart id more faults agrees
  | finish id => exact finish_agrees apart id agrees orderly
  | abort id => exact abort_agrees apart id faults agrees

/-- In a run that keeps to the condition, what is observed of a key is what the store with
metadata says of it. -/
theorem local_blob_refines (apart : Apart config keys) {labels : List Label} {state : State}
    (path : Path (system config) (Orderly config keys) initial labels state) {key : String}
    (inside : key ∈ keys) :
    view config state.disk.files key = state.reference.view key ∧
      ∀ offset length, readRange config state.disk.files key offset length =
        (state.reference.view key).bytes.map fun bytes => (bytes.drop offset).take length := by
  have preserved : Preserved (system config) (Orderly config keys) (Agrees config keys) := by
    intro before label next agrees orderly fired
    cases fired
    exact step_agrees apart agrees orderly
  have agrees := path_preserves preserved path agrees_initial
  have shown := agrees.shown key inside
  refine ⟨shown, ?_⟩
  intro offset length
  rw [← shown]
  rfl

end Runs

theorem apart_letters : Apart plainRoot {"a", "b"} where
  mapped := by
    rintro key (rfl | rfl)
    · exact ⟨"a", rfl⟩
    · exact ⟨"b", rfl⟩
  distinct := by
    rintro key (rfl | rfl) other (rfl | rfl) same
    · rfl
    · exact absurd (Option.some.inj same) (by decide)
    · exact absurd (Option.some.inj same) (by decide)
    · rfl
  ct := by
    rintro key (rfl | rfl) other (rfl | rfl) <;> decide
  filename := by
    rintro key (rfl | rfl) other (rfl | rfl) <;> decide
  uploads := by
    rintro key (rfl | rfl) id same
    all_goals
      have chars := congrArg String.toList (Option.some.inj same)
      simp [Config.tmpPath] at chars

theorem local_blob_refines_copied :
    ∃ state, Reachable (system plainRoot) (Orderly plainRoot {"a", "b"}) state ∧
      readRange plainRoot state.disk.files "b" 1 5 = some [2] := by
  let labels : List Label :=
    [⟨.put "a" [1, 2] (some "x/y"), noFault⟩, ⟨.copy "a" "b", noFault⟩]
  let state := labels.foldl (step plainRoot) initial
  have path : Path (system plainRoot) (Orderly plainRoot {"a", "b"}) initial labels state := by
    refine ⟨⟨.inl rfl, fun _ => ?_⟩, _, rfl, ⟨.inl rfl, .inr rfl, ?_⟩, _, rfl, rfl⟩
    · exact ⟨fun _ => rfl, rfl⟩
    · intro _ _ entry found
      refine ⟨?_, ?_⟩
      · intro path mapped left fault
        cases fault
      · intro _
        exact ⟨fun _ => rfl, rfl, .inr rfl⟩
  refine ⟨state, ⟨labels, path⟩, ?_⟩
  have inside : "b" ∈ ({"a", "b"} : Set String) := .inr rfl
  have refined := local_blob_refines apart_letters path inside
  rw [refined.2 1 5]
  rfl

end OnlyJs.Bridge.Blob
