import OnlyJs.Lib.Admission
import OnlyJs.Serve.Table.Rows

/-!
# Slots of the route table

The table keeps four structures side by side: the pattern matcher, the slot of every pattern,
the methods of every slot and the rows for the outside. A registration extends all of them,
some of them, or none. What they hold afterwards is read off the registrations whose pattern
the matcher has taken.
-/

namespace OnlyJs.Serve

open Bridge Lib Lib.Admission List

structure Router (Held : Type) where
  new : Held
  insert : Held → List Char → Nat → Except String Unit × Held
  matchAt : Held → List Char → Option (Nat × Params)

/-- One call of `register`. -/
structure Registration where
  method : String
  pattern : List Char
  file : FilePath
  schema : Option Value
  handler : String

structure SlotTable (Held : Type) where
  matcher : Held
  slots : List (List Char × Nat)
  nodes : List (List (String × Entry))
  rows : List RouteRow
  files : List FilePath

namespace SlotTable

variable {Held : Type} (router : Router Held)

def new : SlotTable Held where
  matcher := router.new
  slots := []
  nodes := []
  rows := []
  files := []

def intern (table : SlotTable Held) (file : FilePath) : Nat × SlotTable Held :=
  match table.files.findIdx? (· = file) with
  | some id => (id, table)
  | none => (table.files.length, { table with files := table.files ++ [file] })

def node (table : SlotTable Held) (slot : Nat) : List (String × Entry) := table.nodes.getD slot []

def rowOf (id : Nat) (call : Registration) : RouteRow where
  method := call.method
  pattern := call.pattern
  file := id
  handler := call.handler
  schema := call.schema

def conflictText (method : String) (pattern : List Char) (first second : FilePath) : String :=
  "route conflict: " ++ method ++ " " ++ String.ofList pattern ++ " declared in " ++
    display first ++ " and " ++ display second

def registerKnown (table : SlotTable Held) (slot id : Nat) (call : Registration) :
    SlotTable Held × List String :=
  match (table.node slot).lookup call.method with
  | some (.file first _) =>
    let message :=
      conflictText call.method call.pattern (table.files.getD first []) call.file
    let map := Association.put (table.node slot) call.method (.conflict message)
    ({ table with nodes := table.nodes.set slot map }, [message])
  | some (.conflict _) =>
    (table, ["route conflict: " ++ call.method ++ " " ++ String.ofList call.pattern ++
      " declared in more than two files (also " ++ display call.file ++ ")"])
  | none =>
    let map := Association.put (table.node slot) call.method (.file id call.handler)
    ({ table with nodes := table.nodes.set slot map, rows := table.rows ++ [rowOf id call] }, [])

def registerNew (table : SlotTable Held) (id : Nat) (call : Registration) :
    SlotTable Held × List String :=
  let slot := table.nodes.length
  match router.insert table.matcher call.pattern slot with
  | (.ok (), matcher) =>
    ({ table with
        matcher := matcher
        slots := Association.put table.slots call.pattern slot
        nodes := table.nodes ++ [[(call.method, .file id call.handler)]]
        rows := table.rows ++ [rowOf id call] }, [])
  | (.error e, matcher) =>
    ({ table with matcher := matcher }, ["invalid route " ++ call.method ++ " " ++
      String.ofList call.pattern ++ " from " ++ display call.file ++ ": " ++ e])

def register (table : SlotTable Held) (call : Registration) : SlotTable Held × List String :=
  let (id, table) := table.intern call.file
  match table.slots.lookup call.pattern with
  | some slot => table.registerKnown slot id call
  | none => table.registerNew router id call

def view (table : SlotTable Held) : RouteTable where
  matchAt := router.matchAt table.matcher
  nodes := fun slot name => (table.node slot).lookup name
  files := table.files
  replaced := []

def lookup (table : SlotTable Held) (path : List Char) (verb : String) : Lookup :=
  (table.view router).lookup path verb

def allMethods : List (String × String) :=
  [("get", "GET"), ("post", "POST"), ("put", "PUT"), ("del", "DELETE"), ("patch", "PATCH"),
    ("head", "HEAD"), ("options", "OPTIONS")]

def methodsOf (table : SlotTable Held) (path : List Char) : List String :=
  match router.matchAt table.matcher path with
  | none => []
  | some (slot, _) =>
    (allMethods.filter fun names => ((table.node slot).lookup names.1).isSome).map Prod.snd

def registerAll (calls : List Registration) : SlotTable Held :=
  calls.foldl (fun table call => (table.register router call).1) (new router)

def knows (table : SlotTable Held) (pattern : List Char) : Bool :=
  (table.slots.lookup pattern).isSome

def takenFrom (table : SlotTable Held) : List Registration → List Registration
  | [] => []
  | call :: rest =>
    let next := (table.register router call).1
    if next.knows call.pattern then call :: next.takenFrom rest else next.takenFrom rest

def taken (calls : List Registration) : List Registration := (new router).takenFrom router calls

def declared (calls : List Registration) (pattern : List Char) (method : String) :
    List Registration :=
  calls.filter fun call => call.pattern = pattern && call.method = method

/-- One declaration is served; from the second on it is the conflict of the first two. -/
def Settled (files : List FilePath) (pattern : List Char) (method : String) :
    List Registration → Option Entry → Prop
  | [], entry => entry = none
  | [only], entry => ∃ id, files[id]? = some only.file ∧ entry = some (.file id only.handler)
  | first :: second :: _, entry =>
    entry = some (.conflict (conflictText method pattern first.file second.file))

/-- The one row of a method is that of its first declaration. -/
def Listed (files : List FilePath) : List Registration → List RouteRow → Prop
  | [], rows => rows = []
  | first :: _, rows => ∃ id, files[id]? = some first.file ∧ rows = [rowOf id first]

def rowsOf (rows : List RouteRow) (pattern : List Char) (method : String) : List RouteRow :=
  rows.filter fun row => row.pattern = pattern && row.method = method

/-- The four structures agree with each other and with the calls that were taken. -/
structure Aligned (held : Held → Set (List Char × Nat)) (table : SlotTable Held)
    (calls : List Registration) : Prop where
  bounded : ∀ pattern slot, table.slots.lookup pattern = some slot → slot < table.nodes.length
  injective : ∀ pattern other slot, table.slots.lookup pattern = some slot →
    table.slots.lookup other = some slot → pattern = other
  surjective : ∀ slot, slot < table.nodes.length →
    ∃ pattern, table.slots.lookup pattern = some slot
  known : ∀ pattern, table.knows pattern = true ↔ ∃ call ∈ calls, call.pattern = pattern
  holds : ∀ pattern slot,
    (pattern, slot) ∈ held table.matcher ↔ table.slots.lookup pattern = some slot
  listed : ∀ pattern method,
    Listed table.files (declared calls pattern method) (rowsOf table.rows pattern method)
  settled : ∀ pattern slot, table.slots.lookup pattern = some slot → ∀ method,
    Settled table.files pattern method (declared calls pattern method)
      ((table.node slot).lookup method)

/-- An insertion adds the pattern with its slot or leaves the matcher as it was. -/
structure Adds (held : Held → Set (List Char × Nat)) : Prop where
  empty : held router.new = ∅
  added : ∀ matcher pattern slot next, router.insert matcher pattern slot = (.ok (), next) →
    held next = insert (pattern, slot) (held matcher)
  refused : ∀ matcher pattern slot e next,
    router.insert matcher pattern slot = (.error e, next) → next = matcher

section Step

variable {router} {held : Held → Set (List Char × Nat)} {table : SlotTable Held}
variable {calls : List Registration} {files more : List FilePath}

theorem intern_spec (table : SlotTable Held) (file : FilePath) :
    ∃ id more, table.intern file = (id, { table with files := table.files ++ more }) ∧
      (table.files ++ more)[id]? = some file := by
  unfold intern
  cases found : table.files.findIdx? (· = file) with
  | some id =>
    refine ⟨id, [], by rw [append_nil], ?_⟩
    obtain ⟨inside, same, _⟩ := findIdx?_eq_some_iff_getElem.mp found
    rw [append_nil, getElem?_eq_getElem inside]
    exact congrArg some (of_decide_eq_true same)
  | none =>
    refine ⟨table.files.length, [file], rfl, ?_⟩
    rw [getElem?_append_right (Nat.le_refl _), Nat.sub_self]
    rfl

variable {id : Nat}

theorem getElem?_extend {file : FilePath} (found : files[id]? = some file) :
    (files ++ more)[id]? = some file := by
  obtain ⟨inside, _⟩ := List.getElem?_eq_some_iff.mp found
  rw [getElem?_append_left inside]
  exact found

variable {pattern : List Char} {method : String}

theorem Settled.extend {entry : Option Entry} (settled : Settled files pattern method calls entry) :
    Settled (files ++ more) pattern method calls entry := by
  match calls, settled with
  | [], settled => exact settled
  | [_], ⟨id, found, same⟩ => exact ⟨id, getElem?_extend found, same⟩
  | _ :: _ :: _, settled => exact settled

theorem Listed.extend {rows : List RouteRow} (listed : Listed files calls rows) :
    Listed (files ++ more) calls rows := by
  match calls, listed with
  | [], listed => exact listed
  | _ :: _, ⟨id, found, same⟩ => exact ⟨id, getElem?_extend found, same⟩

theorem Aligned.extend (aligned : Aligned held table calls) (more : List FilePath) :
    Aligned held { table with files := table.files ++ more } calls where
  bounded := aligned.bounded
  injective := aligned.injective
  surjective := aligned.surjective
  known := aligned.known
  holds := aligned.holds
  listed := fun pattern method => (aligned.listed pattern method).extend
  settled := fun pattern slot found method => (aligned.settled pattern slot found method).extend

theorem declared_append (call : Registration) (pattern : List Char) (method : String) :
    declared (calls ++ [call]) pattern method =
      declared calls pattern method ++
        if call.pattern = pattern ∧ call.method = method then [call] else [] := by
  unfold declared
  rw [filter_append, filter_singleton]
  by_cases same : call.pattern = pattern ∧ call.method = method
  · simp
  · rw [if_neg same]
    have other : (decide (call.pattern = pattern) && decide (call.method = method)) = false := by
      rw [Bool.and_eq_false_iff, decide_eq_false_iff_not, decide_eq_false_iff_not]
      tauto
    rw [other]
    rfl

theorem rows_append (rows : List RouteRow) (id : Nat) (call : Registration)
    (pattern : List Char) (method : String) :
    rowsOf (rows ++ [rowOf id call]) pattern method =
      rowsOf rows pattern method ++
        if call.pattern = pattern ∧ call.method = method then [rowOf id call] else [] := by
  unfold rowsOf
  rw [filter_append, filter_singleton]
  by_cases same : call.pattern = pattern ∧ call.method = method
  · simp [same, rowOf]
  · rw [if_neg same]
    have other : (decide ((rowOf id call).pattern = pattern) &&
        decide ((rowOf id call).method = method)) = false := by
      rw [Bool.and_eq_false_iff, decide_eq_false_iff_not, decide_eq_false_iff_not]
      exact not_and_or.mp same
    rw [other]
    rfl

theorem knows_iff (pattern : List Char) :
    table.knows pattern = true ↔ ∃ slot, table.slots.lookup pattern = some slot :=
  Option.isSome_iff_exists

theorem Aligned.undeclared (aligned : Aligned held table calls)
    (absent : table.slots.lookup pattern = none) (method : String) :
    declared calls pattern method = [] := by
  apply filter_eq_nil_iff.mpr
  intro call member same
  have known := (aligned.known pattern).mpr
    ⟨call, member, of_decide_eq_true (Bool.and_eq_true_iff.mp same).1⟩
  rw [knows, absent] at known
  cases known

theorem known_append (aligned : Aligned held table calls) (call : Registration) :
    (∃ other ∈ calls ++ [call], other.pattern = pattern) ↔
      table.knows pattern = true ∨ call.pattern = pattern := by
  rw [aligned.known pattern]
  constructor
  · rintro ⟨other, member, same⟩
    rcases mem_append.mp member with member | member
    · exact .inl ⟨other, member, same⟩
    · exact .inr (mem_singleton.mp member ▸ same)
  · rintro (⟨other, member, same⟩ | same)
    · exact ⟨other, mem_append_left _ member, same⟩
    · exact ⟨call, mem_append_right _ (mem_singleton_self _), same⟩

variable {call : Registration}

/-- A call for a pattern that has a slot: what it does to the one entry of its method and to
the rows of that method decides everything. -/
theorem Aligned.known_call (aligned : Aligned held table calls) {slot : Nat}
    (found : table.slots.lookup call.pattern = some slot) {nodes : List (List (String × Entry))}
    {rows : List RouteRow} (entry : Option Entry) (size : nodes.length = table.nodes.length)
    (read : ∀ other method, (nodes.getD other []).lookup method = if other = slot ∧
      method = call.method then entry else (table.node other).lookup method)
    (settles : Settled table.files call.pattern call.method
      (declared calls call.pattern call.method ++ [call]) entry)
    (lists : Listed table.files (declared calls call.pattern call.method ++
      [call]) (rowsOf rows call.pattern call.method))
    (others : ∀ pattern method, ¬(call.pattern = pattern ∧ call.method = method) →
      rowsOf rows pattern method = rowsOf table.rows pattern method) :
    Aligned held { table with nodes := nodes, rows := rows } (calls ++ [call]) where
  bounded := fun pattern other taken => size.symm ▸ aligned.bounded pattern other taken
  injective := aligned.injective
  surjective := fun other inside => aligned.surjective other (size ▸ inside)
  known := fun pattern => by
    rw [known_append aligned call]
    refine ⟨.inl, fun either => either.elim id fun own => ?_⟩
    rw [← own, knows, found]
    rfl
  holds := aligned.holds
  listed := fun pattern method => by
    rw [declared_append]
    by_cases same : call.pattern = pattern ∧ call.method = method
    · obtain ⟨rfl, rfl⟩ := same
      rw [if_pos ⟨rfl, rfl⟩]
      exact lists
    · rw [if_neg same, append_nil]
      rw [others pattern method same]
      exact aligned.listed pattern method
  settled := fun pattern other taken method => by
    have entries : (node { table with nodes := nodes, rows := rows } other).lookup method =
      if other = slot ∧ method = call.method then entry else (table.node other).lookup method :=
      read other method
    rw [declared_append, entries]
    by_cases same : call.pattern = pattern ∧ call.method = method
    · obtain ⟨rfl, rfl⟩ := same
      have own : other = slot := Option.some.inj (taken.symm.trans found)
      rw [if_pos ⟨rfl, rfl⟩, if_pos ⟨own, rfl⟩]
      exact settles
    · have apart : ¬(other = slot ∧ method = call.method) := by
        rintro ⟨rfl, rfl⟩
        exact same ⟨aligned.injective _ _ _ found taken, rfl⟩
      rw [if_neg same, if_neg apart, append_nil]
      exact aligned.settled pattern other taken method

theorem node_put {slot : Nat} (inside : slot < table.nodes.length) (name : String) (entry : Entry)
    (other : Nat) (method : String) :
    ((table.nodes.set slot (Association.put (table.node slot) name entry)).getD other []).lookup
        method =
      if other = slot ∧ method = name then some entry else (table.node other).lookup method := by
  by_cases same : other = slot
  · subst same
    rw [getD_eq_getElem?_getD, getElem?_set_self inside, Option.getD_some,
      Association.lookup_put]
    by_cases named : method = name
    · rw [if_pos named, if_pos ⟨rfl, named⟩]
    · rw [if_neg named, if_neg fun both => named both.2]
  · rw [getD_eq_getElem?_getD, getElem?_set_ne (Ne.symm same), if_neg fun both => same both.1]
    rfl

theorem Settled.of_file {handler : String}
    (settled : Settled files pattern method calls (some (.file id handler))) :
    ∃ only, calls = [only] ∧ files[id]? = some only.file := by
  match calls, settled with
  | [], settled => cases settled
  | [only], ⟨_, found, same⟩ =>
    cases same
    exact ⟨only, rfl, found⟩
  | _ :: _ :: _, settled => cases settled

theorem Settled.of_conflict {message : String}
    (settled : Settled files pattern method calls (some (.conflict message))) :
    ∃ first second rest, calls = first :: second :: rest ∧
      message = conflictText method pattern first.file second.file := by
  match calls, settled with
  | [], settled => cases settled
  | [_], ⟨_, _, same⟩ => cases same
  | first :: second :: rest, settled =>
    cases settled
    exact ⟨first, second, rest, rfl, rfl⟩

theorem Settled.of_none (settled : Settled files pattern method calls none) : calls = [] := by
  match calls, settled with
  | [], _ => rfl
  | [_], ⟨_, _, same⟩ => cases same
  | _ :: _ :: _, settled => cases settled

theorem aligned_registerKnown (aligned : Aligned held table calls) {slot : Nat}
    (found : table.slots.lookup call.pattern = some slot)
    (interned : table.files[id]? = some call.file) :
    Aligned held (table.registerKnown slot id call).1 (calls ++ [call]) := by
  have inside := aligned.bounded _ _ found
  have settled := aligned.settled _ _ found call.method
  have listed := aligned.listed call.pattern call.method
  unfold registerKnown
  split
  · rename_i first handler declaredOnce
    rw [declaredOnce] at settled
    obtain ⟨only, single, file⟩ := settled.of_file
    have shown : table.files.getD first [] = only.file := by
      rw [getD_eq_getElem?_getD, file, Option.getD_some]
    apply aligned.known_call found _ (length_set) (node_put inside _ _)
    · rw [single, shown]
      rfl
    · rw [single] at listed ⊢
      exact listed
    · exact fun _ _ _ => rfl
  · rename_i message pinned
    rw [pinned] at settled
    obtain ⟨first, second, rest, several, text⟩ := settled.of_conflict
    apply aligned.known_call found (some (.conflict message)) rfl
    · intro other method
      by_cases same : other = slot ∧ method = call.method
      · obtain ⟨rfl, rfl⟩ := same
        rw [if_pos ⟨rfl, rfl⟩]
        exact pinned
      · rw [if_neg same]
        rfl
    · rw [several, text]
      rfl
    · rw [several] at listed ⊢
      exact listed
    · exact fun _ _ _ => rfl
  · rename_i free
    rw [free] at settled
    have nothing := settled.of_none
    apply aligned.known_call found _ (length_set) (node_put inside _ _)
    · rw [nothing]
      exact ⟨id, interned, rfl⟩
    · rw [nothing] at listed ⊢
      rw [rows_append, if_pos ⟨rfl, rfl⟩, show rowsOf table.rows call.pattern call.method = []
        from listed]
      exact ⟨id, interned, rfl⟩
    · intro pattern method other
      rw [rows_append, if_neg other, append_nil]

/-- A pattern without a slot gets the next one, if the matcher takes it. -/
theorem aligned_taken (aligned : Aligned held table calls) {next : Held}
    (absent : table.slots.lookup call.pattern = none) (interned : table.files[id]? = some call.file)
    (added : held next = insert (call.pattern, table.nodes.length) (held table.matcher)) :
    Aligned held
      { table with
        matcher := next
        slots := Association.put table.slots call.pattern table.nodes.length
        nodes := table.nodes ++ [[(call.method, .file id call.handler)]]
        rows := table.rows ++ [rowOf id call] }
      (calls ++ [call]) := by
  have slotted (pattern : List Char) :
      (Association.put table.slots call.pattern table.nodes.length).lookup pattern =
        if pattern = call.pattern then some table.nodes.length
        else table.slots.lookup pattern :=
    Association.lookup_put _ _ _ _
  have grown : (table.nodes ++ [[(call.method, Entry.file id call.handler)]]).length =
      table.nodes.length + 1 := length_append
  refine { bounded := ?_, injective := ?_, surjective := ?_, known := ?_, holds := ?_,
           listed := ?_, settled := ?_ }
  · intro pattern slot found
    rw [slotted] at found
    rw [grown]
    split at found
    · cases found
      exact Nat.lt_succ_self _
    · exact Nat.lt_succ_of_lt (aligned.bounded _ _ found)
  · intro pattern other slot first second
    rw [slotted] at first second
    split at first <;> split at second
    · rename_i own ownToo
      rw [own, ownToo]
    · cases first
      exact absurd (aligned.bounded _ _ second) (Nat.lt_irrefl _)
    · cases second
      exact absurd (aligned.bounded _ _ first) (Nat.lt_irrefl _)
    · exact aligned.injective _ _ _ first second
  · intro slot inside
    rw [grown] at inside
    rcases Nat.lt_succ_iff_lt_or_eq.mp inside with before | last
    · obtain ⟨pattern, found⟩ := aligned.surjective slot before
      have other : pattern ≠ call.pattern := by
        intro same
        rw [same, absent] at found
        cases found
      exact ⟨pattern, by rw [slotted, if_neg other, found]⟩
    · exact ⟨call.pattern, by rw [slotted, if_pos rfl, last]⟩
  · intro pattern
    rw [known_append aligned call, knows]
    rw [slotted]
    by_cases own : pattern = call.pattern
    · rw [if_pos own]
      exact ⟨fun _ => .inr own.symm, fun _ => rfl⟩
    · rw [if_neg own]
      exact ⟨.inl, fun either => either.resolve_right fun same => own same.symm⟩
  · intro pattern slot
    rw [added, slotted, Set.mem_insert_iff, aligned.holds, Prod.mk.injEq]
    by_cases own : pattern = call.pattern
    · subst own
      rw [if_pos rfl, absent, Option.some.injEq]
      exact ⟨fun either => either.elim (fun both => both.2.symm) nofun,
        fun same => .inl ⟨rfl, same.symm⟩⟩
    · rw [if_neg own]
      exact ⟨fun either => either.resolve_left fun both => own both.1, .inr⟩
  · intro pattern method
    rw [declared_append, rows_append]
    by_cases same : call.pattern = pattern ∧ call.method = method
    · obtain ⟨rfl, rfl⟩ := same
      have nothing := aligned.undeclared absent call.method
      have listed := aligned.listed call.pattern call.method
      rw [nothing] at listed ⊢
      rw [if_pos ⟨rfl, rfl⟩, if_pos ⟨rfl, rfl⟩,
        show rowsOf table.rows call.pattern call.method = [] from listed]
      exact ⟨id, interned, rfl⟩
    · rw [if_neg same, if_neg same, append_nil, append_nil]
      exact aligned.listed pattern method
  · intro pattern slot found method
    rw [slotted] at found
    rw [declared_append]
    split at found
    · rename_i own
      cases found
      rw [own, aligned.undeclared absent method, node, getD_eq_getElem?_getD,
        getElem?_append_right (Nat.le_refl _), Nat.sub_self]
      by_cases named : method = call.method
      · subst named
        rw [if_pos ⟨rfl, rfl⟩]
        exact ⟨id, interned, lookup_cons_self⟩
      · rw [if_neg fun both => named both.2.symm]
        have missed : (method == call.method) = false := beq_eq_false_iff_ne.mpr named
        change List.lookup method [(call.method, Entry.file id call.handler)] = none
        rw [lookup_cons, missed]
        rfl
    · rename_i other
      rw [if_neg fun both => other both.1.symm, append_nil, node,
        getD_eq_getElem?_getD, getElem?_append_left (aligned.bounded _ _ found)]
      exact aligned.settled pattern slot found method

theorem register_interned (router : Router Held) (aligned : Aligned held table calls)
    (call : Registration) :
    ∃ id interned, Aligned held interned calls ∧ interned.slots = table.slots ∧
      interned.matcher = table.matcher ∧ interned.files[id]? = some call.file ∧
      table.register router call =
        match interned.slots.lookup call.pattern with
        | some slot => interned.registerKnown slot id call
        | none => interned.registerNew router id call := by
  obtain ⟨id, more, interned, found⟩ := intern_spec table call.file
  refine ⟨id, { table with files := table.files ++ more }, aligned.extend more, rfl, rfl, found, ?_⟩
  unfold register
  rw [interned]

theorem registerNew_cases (router : Router Held) (table : SlotTable Held) (id : Nat)
    (call : Registration) :
    (∃ next, router.insert table.matcher call.pattern table.nodes.length = (.ok (), next) ∧
      (table.registerNew router id call).1 =
        { table with
          matcher := next
          slots := Association.put table.slots call.pattern table.nodes.length
          nodes := table.nodes ++ [[(call.method, .file id call.handler)]]
          rows := table.rows ++ [rowOf id call] }) ∨
    ∃ e next, router.insert table.matcher call.pattern table.nodes.length = (.error e, next) ∧
      (table.registerNew router id call).1 = { table with matcher := next } := by
  unfold registerNew
  cases inserted : router.insert table.matcher call.pattern table.nodes.length with
  | mk result next =>
    cases result with
    | ok => exact .inl ⟨next, rfl, by dsimp only; rw [inserted]⟩
    | error e => exact .inr ⟨e, next, rfl, by dsimp only; rw [inserted]⟩

section

variable (adds : Adds router held)
include adds

theorem aligned_register (aligned : Aligned held table calls) (call : Registration) :
    Aligned held (table.register router call).1
      (if (table.register router call).1.knows call.pattern then calls ++ [call] else calls) := by
  obtain ⟨id, interned, aligned, _, _, found, registered⟩ :=
    register_interned router aligned call
  rw [registered]
  cases slotted : interned.slots.lookup call.pattern with
  | some slot =>
    have next := aligned_registerKnown aligned slotted found
    have known := (next.known call.pattern).mpr
      ⟨call, mem_append_right _ (mem_singleton_self _), rfl⟩
    rw [if_pos known]
    exact next
  | none =>
    rcases registerNew_cases router interned id call with
      ⟨next, inserted, registered⟩ | ⟨e, next, inserted, registered⟩
    · have taken := aligned_taken aligned slotted found (adds.added _ _ _ _ inserted)
      rw [← registered] at taken
      have known := (taken.known call.pattern).mpr
        ⟨call, mem_append_right _ (mem_singleton_self _), rfl⟩
      rw [if_pos known]
      exact taken
    · have same := adds.refused _ _ _ _ _ inserted
      subst same
      rw [registered]
      have unknown : knows { interned with matcher := interned.matcher } call.pattern =
          false := by
        rw [knows, slotted]
        rfl
      rw [if_neg (Bool.eq_false_iff.mp unknown)]
      exact aligned

theorem aligned_new : Aligned held (new router) [] where
  bounded := nofun
  injective := nofun
  surjective := fun _ inside => absurd inside (Nat.not_lt_zero _)
  known := fun pattern => ⟨nofun, nofun⟩
  holds := fun pattern slot => by
    have none_held : held (new router).matcher = ∅ := adds.empty
    rw [none_held]
    exact ⟨nofun, nofun⟩
  listed := fun _ _ => rfl
  settled := nofun

theorem aligned_all (later : List Registration) (aligned : Aligned held table calls) :
    Aligned held (later.foldl (fun table call => (table.register router call).1) table)
      (calls ++ table.takenFrom router later) := by
  induction later generalizing table calls with
  | nil =>
    rw [takenFrom, append_nil]
    exact aligned
  | cons call later ih =>
    have next := ih (aligned_register adds aligned call)
    rw [takenFrom]
    split
    · rename_i known
      rw [if_pos known, append_assoc] at next
      exact next
    · rename_i unknown
      rw [if_neg unknown] at next
      exact next

theorem aligned_registerAll (calls : List Registration) :
    Aligned held (registerAll router calls) (taken router calls) :=
  aligned_all adds calls (aligned_new adds)

end

end Step

/-- What decides whether a matcher takes a pattern and which pattern a path leads to: the
patterns that are there, not when they came. -/
structure Structural (held : Held → Set (List Char × Nat)) (sound : List Char → Bool)
    (clash : List Char → List Char → Bool)
    (chosen : Set (List Char) → List Char → Option (List Char × Params)) : Prop where
  inserts : ∀ matcher pattern slot, (router.insert matcher pattern slot).1 = .ok () ↔
    sound pattern = true ∧ ∀ entry ∈ held matcher, clash entry.1 pattern = false
  chooses : ∀ matcher, (∀ pattern first second, (pattern, first) ∈ held matcher →
      (pattern, second) ∈ held matcher → first = second) → ∀ path slot params,
    router.matchAt matcher path = some (slot, params) ↔
      ∃ pattern, chosen (Prod.fst '' held matcher) path = some (pattern, params) ∧
        (pattern, slot) ∈ held matcher

/-- The same calls in another order, with those whose patterns clash in the same order. -/
def Rearranged (clash : List Char → List Char → Bool) (calls others : List Registration) : Prop :=
  let tangled (call : Registration) :=
    entangled clash (calls.map Registration.pattern) call.pattern
  calls.Perm others ∧ calls.filter tangled = others.filter tangled

/-- Two tables conflict on the same requests and lead all others to the same target. -/
structure SameAnswers (table other : SlotTable Held) : Prop where
  conflicts : ∀ path verb, (∃ message, table.lookup router path verb = .conflict message) ↔
    ∃ message, other.lookup router path verb = .conflict message
  targets : ∀ path verb, (∀ message, table.lookup router path verb ≠ .conflict message) →
    other.lookup router path verb = table.lookup router path verb
  methods : ∀ path, other.methodsOf router path = table.methodsOf router path

section Order

variable {router} {held : Held → Set (List Char × Nat)} {table : SlotTable Held}
variable {calls : List Registration} {sound : List Char → Bool}
variable {clash : List Char → List Char → Bool}
variable {chosen : Set (List Char) → List Char → Option (List Char × Params)}

variable {other : SlotTable Held}

theorem knows_of_slots (same : other.slots = table.slots) (pattern : List Char) :
    other.knows pattern = table.knows pattern := by
  rw [knows, knows, same]

theorem registerKnown_slots (table : SlotTable Held) (slot id : Nat) (call : Registration) :
    (table.registerKnown slot id call).1.slots = table.slots := by
  unfold registerKnown
  split <;> rfl

variable {patterns : List (List Char)}

section

variable (structural : Structural router held sound clash chosen)
  (aligned : Aligned held table calls)
  (same : ∀ pattern, table.knows pattern = true ↔ pattern ∈ patterns)
include structural aligned same

theorem inserts_iff (pattern : List Char) (slot : Nat) :
    (router.insert table.matcher pattern slot).1 = .ok () ↔
      admits sound clash patterns pattern = true := by
  rw [structural.inserts, admits_iff]
  refine and_congr_right fun _ => ⟨fun free other member => ?_, fun free entry member => ?_⟩
  · obtain ⟨place, slotted⟩ := (knows_iff other).mp ((same other).mpr member)
    exact free (other, place) ((aligned.holds other place).mpr slotted)
  · have slotted := (aligned.holds entry.1 entry.2).mp member
    exact free entry.1 ((same entry.1).mp ((knows_iff entry.1).mpr ⟨entry.2, slotted⟩))

theorem knows_register (call : Registration) (pattern : List Char) :
    (table.register router call).1.knows pattern = true ↔
      pattern ∈ takeIn sound clash patterns call.pattern := by
  obtain ⟨id, interned, aligned, slots, matcher, _, registered⟩ :=
    register_interned router aligned call
  have same (pattern : List Char) : interned.knows pattern = true ↔ pattern ∈ patterns := by
    rw [knows_of_slots slots, same]
  rw [registered, mem_takeIn]
  cases slotted : interned.slots.lookup call.pattern with
  | some slot =>
    rw [knows_of_slots (registerKnown_slots interned slot id call), same]
    refine ⟨.inl, fun either => either.elim (fun member => member) fun both => ?_⟩
    rw [both.1]
    exact (same call.pattern).mp ((knows_iff call.pattern).mpr ⟨slot, slotted⟩)
  | none =>
    have decides := inserts_iff structural aligned same call.pattern interned.nodes.length
    rcases registerNew_cases router interned id call with
      ⟨next, inserted, registered⟩ | ⟨e, next, inserted, registered⟩
    · rw [inserted] at decides
      rw [registered, knows]
      rw [Association.lookup_put, ← same pattern]
      by_cases own : pattern = call.pattern
      · rw [if_pos own]
        exact ⟨fun _ => .inr ⟨own, decides.mp rfl⟩, fun _ => rfl⟩
      · rw [if_neg own]
        exact ⟨.inl, fun either => either.resolve_right fun both => own both.1⟩
    · rw [inserted] at decides
      rw [registered]
      change interned.knows pattern = true ↔ _
      rw [same]
      refine ⟨.inl, fun either => either.resolve_right fun both => ?_⟩
      cases decides.mpr both.2

end

theorem registerAll_append (calls : List Registration) (call : Registration) :
    registerAll router (calls ++ [call]) =
      ((registerAll router calls).register router call).1 := by
  rw [registerAll, foldl_append]
  rfl

theorem knows_registerAll (adds : Adds router held)
    (structural : Structural router held sound clash chosen) (calls : List Registration)
    (pattern : List Char) :
    (registerAll router calls).knows pattern = true ↔
      pattern ∈ admitted sound clash (calls.map Registration.pattern) := by
  induction calls using List.reverseRecOn generalizing pattern with
  | nil => exact ⟨nofun, nofun⟩
  | append_singleton calls call ih =>
    rw [registerAll_append, map_append, map_singleton, admitted_append]
    exact knows_register structural (aligned_registerAll adds calls) ih call pattern

theorem takenFrom_append (table : SlotTable Held) (calls : List Registration)
    (call : Registration) :
    table.takenFrom router (calls ++ [call]) = table.takenFrom router calls ++
      (calls.foldl (fun table call => (table.register router call).1) table).takenFrom router
        [call] := by
  induction calls generalizing table with
  | nil => rfl
  | cons first calls ih =>
    rw [cons_append, takenFrom, takenFrom, ih]
    split <;> rfl

section

variable (adds : Adds router held) (structural : Structural router held sound clash chosen)
include adds structural

theorem taken_eq_filter (calls : List Registration) :
    taken router calls =
      calls.filter fun call => (registerAll router calls).knows call.pattern := by
  induction calls using List.reverseRecOn with
  | nil => rfl
  | append_singleton calls call ih =>
    have settled (other : Registration) (member : other ∈ calls) :
        (registerAll router (calls ++ [call])).knows other.pattern =
          (registerAll router calls).knows other.pattern := by
      rw [Bool.eq_iff_iff, knows_registerAll adds structural, knows_registerAll adds structural,
        map_append]
      exact admitted_settled (mem_map_of_mem member) call.pattern
    have last : (registerAll router calls).takenFrom router [call] =
        [call].filter fun other =>
          (registerAll router (calls ++ [call])).knows other.pattern := by
      rw [registerAll_append, takenFrom, filter_singleton]
      cases ((registerAll router calls).register router call).1.knows call.pattern <;> rfl
    rw [filter_append, filter_congr settled, ← ih, ← last]
    exact takenFrom_append _ calls call

theorem declared_taken {pattern : List Char}
    (known : (registerAll router calls).knows pattern = true) (method : String) :
    declared (taken router calls) pattern method = declared calls pattern method := by
  rw [taken_eq_filter adds structural, declared, filter_filter]
  apply filter_congr
  intro call _
  by_cases own : call.pattern = pattern
  · rw [own, known, Bool.and_true]
  · rw [decide_eq_false own, Bool.false_and, Bool.false_and]

end

/-- What one entry says to a request, whatever the number of its file. -/
inductive SameEntry (files others : List FilePath) : Option Entry → Option Entry → Prop
  | absent : SameEntry files others none none
  | file {id place : Nat} {file : FilePath} {handler : String} (first : files[id]? = some file)
      (second : others[place]? = some file) :
      SameEntry files others (some (.file id handler)) (some (.file place handler))
  | conflict (first second : String) :
      SameEntry files others (some (.conflict first)) (some (.conflict second))

theorem same_entry {files others : List FilePath} {pattern : List Char} {method : String}
    {first second : List Registration} {entry other : Option Entry}
    (settled : Settled files pattern method first entry)
    (settledToo : Settled others pattern method second other) (same : first.Perm second) :
    SameEntry files others entry other := by
  match first, settled with
  | [], settled =>
    rw [nil_perm.mp same] at settledToo
    cases settled
    cases settledToo
    exact .absent
  | [only], ⟨id, found, file⟩ =>
    rw [← singleton_perm.mp same] at settledToo
    obtain ⟨place, foundToo, fileToo⟩ := settledToo
    rw [file, fileToo]
    exact .file found foundToo
  | _ :: _ :: _, settled =>
    match second, settledToo with
    | [], _ | [_], _ => cases same.length_eq
    | _ :: _ :: _, settledToo =>
      cases settled
      cases settledToo
      exact .conflict _ _

theorem held_functional (aligned : Aligned held table calls) (pattern : List Char)
    (first second : Nat) (one : (pattern, first) ∈ held table.matcher)
    (two : (pattern, second) ∈ held table.matcher) : first = second := by
  rw [aligned.holds] at one two
  exact Option.some.inj (one.symm.trans two)

theorem held_patterns (aligned : Aligned held table calls) :
    Prod.fst '' held table.matcher = { pattern | table.knows pattern = true } := by
  ext pattern
  rw [Set.mem_ofPred_eq, knows_iff]
  constructor
  · rintro ⟨⟨_, slot⟩, inside, rfl⟩
    exact ⟨slot, (aligned.holds _ _).mp inside⟩
  · rintro ⟨slot, found⟩
    exact ⟨(pattern, slot), (aligned.holds _ _).mpr found, rfl⟩

theorem match_same {more : List Registration}
    (structural : Structural router held sound clash chosen) (aligned : Aligned held table calls)
    (alignedToo : Aligned held other more)
    (same : ∀ pattern, table.knows pattern = true ↔ other.knows pattern = true) (path : List Char) :
    (router.matchAt table.matcher path = none ∧ router.matchAt other.matcher path = none) ∨
      ∃ pattern slot place params,
        router.matchAt table.matcher path = some (slot, params) ∧
        router.matchAt other.matcher path = some (place, params) ∧
        table.slots.lookup pattern = some slot ∧ other.slots.lookup pattern = some place := by
  have first := structural.chooses table.matcher (held_functional aligned) path
  have second := structural.chooses other.matcher (held_functional alignedToo) path
  have patterns : Prod.fst '' held other.matcher = Prod.fst '' held table.matcher := by
    rw [held_patterns aligned, held_patterns alignedToo]
    ext pattern
    exact (same pattern).symm
  rw [patterns] at second
  cases matched : router.matchAt table.matcher path with
  | none =>
    refine .inl ⟨rfl, ?_⟩
    cases matchedToo : router.matchAt other.matcher path with
    | none => rfl
    | some found =>
      obtain ⟨pattern, chosen, inside⟩ := (second found.1 found.2).mp matchedToo
      obtain ⟨slot, slotted⟩ := (knows_iff pattern).mp ((same pattern).mpr
        ((knows_iff pattern).mpr ⟨_, (alignedToo.holds _ _).mp inside⟩))
      have reached := (first slot found.2).mpr
        ⟨pattern, chosen, (aligned.holds _ _).mpr slotted⟩
      rw [matched] at reached
      cases reached
  | some found =>
    obtain ⟨pattern, chosen, inside⟩ := (first found.1 found.2).mp matched
    have slotted := (aligned.holds _ _).mp inside
    obtain ⟨place, placed⟩ := (knows_iff pattern).mp ((same pattern).mp
      ((knows_iff pattern).mpr ⟨_, slotted⟩))
    exact .inr ⟨pattern, found.1, place, found.2, rfl,
      (second place found.2).mpr ⟨pattern, chosen, (alignedToo.holds _ _).mpr placed⟩,
      slotted, placed⟩

/-- Entries that say the same make tables that answer the same. -/
theorem same_answers
    (same : ∀ path, (router.matchAt table.matcher path = none ∧
      router.matchAt other.matcher path = none) ∨
      ∃ slot place params, router.matchAt table.matcher path = some (slot, params) ∧
      router.matchAt other.matcher path = some (place, params) ∧
      ∀ method, SameEntry table.files other.files ((table.node slot).lookup method)
      ((other.node place).lookup method)) :
    SameAnswers router table other := by
  have either (path : List Char) (verb : String) :
      other.lookup router path verb = table.lookup router path verb ∨
        ∃ first second, table.lookup router path verb = .conflict first ∧
          other.lookup router path verb = .conflict second := by
    unfold lookup RouteTable.lookup view
    dsimp only
    rcases same path with
      ⟨matched, matchedToo⟩ | ⟨slot, place, params, matched, matchedToo, entries⟩
    · rw [matched, matchedToo]
      exact .inl rfl
    · rw [matched, matchedToo]
      cases methodName verb with
      | none => exact .inl rfl
      | some name =>
        have entry := entries name
        dsimp only
        generalize (table.node slot).lookup name = first,
          (other.node place).lookup name = second at entry ⊢
        cases entry with
        | absent => exact .inl rfl
        | file first second =>
          dsimp only
          rw [first, second]
          exact .inl rfl
        | conflict first second => exact .inr ⟨first, second, rfl, rfl⟩
  refine { conflicts := fun path verb => ?_, targets := fun path verb calm => ?_,
           methods := fun path => ?_ }
  · rcases either path verb with equal | ⟨first, second, one, two⟩
    · rw [equal]
    · exact ⟨fun _ => ⟨second, two⟩, fun _ => ⟨first, one⟩⟩
  · rcases either path verb with equal | ⟨first, _, one, _⟩
    · exact equal
    · exact absurd one (calm first)
  · unfold methodsOf
    rcases same path with
      ⟨matched, matchedToo⟩ | ⟨slot, place, params, matched, matchedToo, entries⟩
    · rw [matched, matchedToo]
    · rw [matched, matchedToo]
      dsimp only
      congr 1
      apply filter_congr
      intro names _
      have entry := entries names.1
      generalize (table.node slot).lookup names.1 = first,
        (other.node place).lookup names.1 = second at entry ⊢
      cases entry <;> rfl

theorem tangled_patterns {others : List Registration} (order : Rearranged clash calls others) :
    (calls.map Registration.pattern).filter (entangled clash (calls.map Registration.pattern)) =
      (others.map Registration.pattern).filter
        (entangled clash (calls.map Registration.pattern)) := by
  rw [filter_map, filter_map]
  exact congrArg (List.map Registration.pattern) order.2

end Order

def plainRouter : Router (List (List Char × Nat)) where
  new := []
  insert matcher pattern slot :=
    if (matcher.lookup pattern).isNone && !pattern.contains '\x7b' then
      (.ok (), (pattern, slot) :: matcher)
    else (.error "conflict", matcher)
  matchAt matcher path := (matcher.lookup path).map fun slot => (slot, [])

def plainHeld (matcher : List (List Char × Nat)) : Set (List Char × Nat) :=
  { entry | entry ∈ matcher }

open Classical in
noncomputable def plainChoice (patterns : Set (List Char)) (path : List Char) :
    Option (List Char × Params) :=
  if path ∈ patterns then some (path, []) else none

theorem plain_adds : Adds plainRouter plainHeld where
  empty := by
    ext entry
    exact ⟨nofun, nofun⟩
  added := by
    intro matcher pattern slot next inserted
    unfold plainRouter at inserted
    dsimp only at inserted
    split at inserted
    · cases inserted
      ext entry
      exact mem_cons
    · cases inserted
  refused := by
    intro matcher pattern slot e next inserted
    unfold plainRouter at inserted
    dsimp only at inserted
    split at inserted
    · cases inserted
    · cases inserted
      rfl

theorem plain_lookup {matcher : List (List Char × Nat)}
    (functional : ∀ pattern first second, (pattern, first) ∈ plainHeld matcher →
      (pattern, second) ∈ plainHeld matcher → first = second) (path : List Char) (slot : Nat) :
    matcher.lookup path = some slot ↔ (path, slot) ∈ plainHeld matcher := by
  refine ⟨Association.mem_of_lookup, fun inside => ?_⟩
  obtain ⟨first, found⟩ :=
    Option.isSome_iff_exists.mp (Association.lookup_isSome.mpr ⟨slot, inside⟩)
  rw [found, functional path first slot (Association.mem_of_lookup found) inside]

theorem plain_structural :
    Structural plainRouter plainHeld (fun pattern => !pattern.contains '\x7b')
      (fun first second => first == second) plainChoice where
  inserts := by
    intro matcher pattern slot
    have absent : (matcher.lookup pattern).isNone = true ↔
        ∀ entry ∈ plainHeld matcher, (entry.1 == pattern) = false := by
      rw [Option.isNone_iff_eq_none, ← Option.not_isSome_iff_eq_none, Association.lookup_isSome]
      constructor
      · intro missing entry inside
        apply beq_eq_false_iff_ne.mpr
        rintro rfl
        exact missing ⟨entry.2, inside⟩
      · rintro apart ⟨slot, inside⟩
        exact absurd rfl (beq_eq_false_iff_ne.mp (apart (pattern, slot) inside))
    rw [← absent, and_comm, ← Bool.and_eq_true]
    unfold plainRouter
    dsimp only
    split
    · rename_i both
      exact ⟨fun _ => both, fun _ => rfl⟩
    · rename_i refused
      exact ⟨nofun, fun both => absurd both refused⟩
  chooses := by
    intro matcher functional path slot params
    have inside : path ∈ Prod.fst '' plainHeld matcher ↔
        ∃ slot, (path, slot) ∈ plainHeld matcher := by
      exact ⟨fun ⟨entry, member, same⟩ => ⟨entry.2, same ▸ member⟩,
        fun ⟨slot, member⟩ => ⟨(path, slot), member, rfl⟩⟩
    have reached : plainRouter.matchAt matcher path = some (slot, params) ↔
        (path, slot) ∈ plainHeld matcher ∧ params = [] := by
      rw [← plain_lookup functional]
      unfold plainRouter
      rw [Option.map_eq_some_iff]
      constructor
      · rintro ⟨found, read, same⟩
        cases same
        exact ⟨read, rfl⟩
      · rintro ⟨read, rfl⟩
        exact ⟨slot, read, rfl⟩
    rw [reached]
    unfold plainChoice
    constructor
    · rintro ⟨member, rfl⟩
      exact ⟨path, if_pos (inside.mpr ⟨slot, member⟩), member⟩
    · rintro ⟨pattern, chosen, member⟩
      split at chosen
      · cases chosen
        exact ⟨member, rfl⟩
      · cases chosen

def plainCall (pattern : String) (name : String) : Registration where
  method := "get"
  pattern := pattern.toList
  file := [name.toList, "api.js".toList]
  schema := none
  handler := "get"

end SlotTable

end OnlyJs.Serve
