import Mathlib.Data.Set.Finite.List
import OnlyJs.Lib.Association
import OnlyJs.Lib.Decimal
import OnlyJs.Lib.Fallible

/-!
# Tools from an OpenAPI document

Every operation of the document becomes a tool. Its name is the sanitised operation id, and
a name that another operation has is followed by a hash and, when need be, by a number.
-/

namespace OnlyJs.Serve.McpTools

open Lib.Association Lib.Decimal Lib.Fallible List

abbrev Text := List Char

def allowed (char : Char) : Bool := char.isAlphanum || char == '_' || char == '-'

def fnv1a64 (bytes : List UInt8) : UInt64 :=
  bytes.foldl (fun h b => (h ^^^ b.toUInt64) * 0x00000100000001b3) 0xcbf29ce484222325

/-- Eight hexadecimal digits of the low half of the hash. -/
def hash8 (raw : Text) : Text :=
  let h := (fnv1a64 (raw.flatMap String.utf8EncodeChar)).toUInt32
  (List.range 8).reverse.map fun place => Nat.digitChar (h.toNat / 16 ^ place % 16)

def sanitizeName (raw : Text) : Text :=
  let s := raw.map fun char => if allowed char then char else '_'
  if 64 < s.length then s.take 55 ++ '_' :: hash8 raw else s

/-- The names given so far, newest first, with the operations that have them. -/
abbrev Seen := List (Text × Text)

def taken (seen : Seen) (operationId name : Text) : Bool :=
  (seen.lookup name).any (· != operationId)

def suffix (operationId : Text) : Nat → Text
  | 0 => '_' :: hash8 operationId
  | n + 1 => '_' :: (hash8 operationId ++ '_' :: Nat.toDigits 10 (n + 2))

def candidate (operationId : Text) (n : Nat) : Text :=
  sanitizeName operationId ++ suffix operationId n

theorem candidate_injective (operationId : Text) : Function.Injective (candidate operationId) := by
  intro first second same
  have same := append_cancel_left same
  cases first <;> cases second
  · rfl
  · simp [suffix] at same
  · simp [suffix] at same
  · rename_i first second
    simp only [suffix, List.cons.injEq, append_cancel_left_eq, true_and] at same
    have parsed := congrArg parseNat same
    simp only [parse_nat_toDigits, Option.some.injEq] at parsed
    omega

theorem taken_iff {seen : Seen} {operationId name : Text} :
    taken seen operationId name = true ↔
      ∃ prev, seen.lookup name = some prev ∧ prev ≠ operationId := by
  simp [taken, Option.any_eq_true]

/-- The loop over the numbers ends, since the candidates differ and finitely many names are
given. -/
theorem exists_free (seen : Seen) (operationId : Text) :
    ∃ n, taken seen operationId (candidate operationId n) = false := by
  by_contra all
  simp only [not_exists, Bool.not_eq_false] at all
  refine Set.infinite_of_injective_forall_mem (candidate_injective operationId)
    (fun n => ?_) (finite_toSet (seen.map Prod.fst))
  obtain ⟨prev, given, _⟩ := taken_iff.mp (all n)
  exact mem_map.mpr ⟨_, mem_of_lookup given, rfl⟩

def toolName (seen : Seen) (operationId : Text) : Text :=
  if taken seen operationId (sanitizeName operationId) then
    candidate operationId (Nat.find (exists_free seen operationId))
  else sanitizeName operationId

variable {Value : Type}

structure Operation (Value : Type) where
  operationId : Option Text
  summary : Option Text
  tags : Option Value
  contract : Value

inductive Annotation where
  | readOnlyHint
  | destructiveHint
deriving DecidableEq

structure Tool (Value : Type) where
  name : Text
  description : Text
  inputSchema : Value
  annotations : Option Annotation
  tags : Option Value

structure ToolDispatch where
  operationId : Text
  method : Text
  oaPath : Text
  catchAll : List Text

structure McpTool (Value : Type) where
  name : Text
  tool : Tool Value
  dispatch : ToolDispatch

/-- The `paths` object in its order, with `none` for a path whose value is no object. -/
abbrev Paths (Value : Type) := List (Text × Option (List (Text × Operation Value)))

/-- The operations in the order of the two loops. -/
def operations (paths : Paths Value) : List (Text × Text × Operation Value) :=
  paths.flatMap fun path => (path.2.getD []).map (path.1, ·)

section Build

-- What follows holds whatever `build_input_schema` makes of the rest of the operation; a
-- failure of it is the failure of the whole.
variable (buildInputSchema : Value → Text → Except Text (Value × Bool))

def toolOf (name oaPath method operationId : Text) (op : Operation Value)
    (schema : Value × Bool) : McpTool Value :=
  let description := op.summary.getD [] ++
    if schema.2 then [] else " (no declared input contract — inspect source)".toList
  let annotations :=
    if method = "get".toList then some .readOnlyHint
    else if method = "delete".toList then some .destructiveHint else none
  { name
    tool := { name, description, inputSchema := schema.1, annotations, tags := op.tags }
    dispatch := { operationId, method, oaPath, catchAll := [] } }

def addTools (seen : Seen) :
    List (Text × Text × Operation Value) → Except Text (List (McpTool Value))
  | [] => .ok []
  | (oaPath, method, op) :: rest => do
      let missing := method ++ ' ' :: oaPath ++ ": operationId missing".toList
      let operationId ← op.operationId.elim (.error missing) .ok
      let name := toolName seen operationId
      let schema ← buildInputSchema op.contract name
      let tools ← addTools ((name, operationId) :: seen) rest
      .ok (toolOf name oaPath method operationId op schema :: tools)

def specToTools (paths : Option (Paths Value)) : Except Text (List (McpTool Value)) :=
  match paths with
  | none => .error "spec.paths missing or not an object".toList
  | some paths => addTools buildInputSchema [] (operations paths)

end Build

def names (seen : Seen) : List Text → List Text
  | [] => []
  | operationId :: rest =>
    toolName seen operationId :: names ((toolName seen operationId, operationId) :: seen) rest

def operationIds (ops : List (Text × Text × Operation Value)) : List Text :=
  ops.filterMap (·.2.2.operationId)

variable {tools : List (McpTool Value)}

theorem addTools_names {buildInputSchema : Value → Text → Except Text (Value × Bool)} {seen : Seen}
    {ops : List (Text × Text × Operation Value)}
    (built : addTools buildInputSchema seen ops = .ok tools) :
    tools.map McpTool.name = names seen (operationIds ops) := by
  induction ops generalizing seen tools with
  | nil =>
    cases built
    rfl
  | cons op rest hypothesis =>
    obtain ⟨oaPath, method, op⟩ := op
    rw [addTools] at built
    obtain ⟨operationId, identified, built⟩ := bind_ok.mp built
    obtain ⟨schema, -, built⟩ := bind_ok.mp built
    obtain ⟨others, later, same⟩ := bind_ok.mp built
    cases same
    have given : op.operationId = some operationId := by
      cases given : op.operationId with
      | none => simp [given] at identified
      | some _ => simpa [given] using identified
    have ids : operationIds ((oaPath, method, op) :: rest) =
        operationId :: operationIds rest := by simp [operationIds, given]
    rw [ids, names, map_cons, hypothesis later, toolOf]

theorem toolName_free (seen : Seen) (operationId : Text) :
    taken seen operationId (toolName seen operationId) = false := by
  unfold toolName
  split
  · exact Nat.find_spec (exists_free seen operationId)
  · exact eq_false_of_ne_true ‹_›

variable {seen : Seen} {operationId : Text}

/-- A new entry leaves every name with its operation. -/
theorem lookup_stays {name other : Text} (given : seen.lookup name = some other) :
    List.lookup name ((toolName seen operationId, operationId) :: seen) = some other := by
  rw [lookup_cons]
  by_cases same : name = toolName seen operationId
  · have free := toolName_free seen operationId
    rw [← same] at free
    simp only [taken, given, Option.any_some, bne_eq_false_iff_eq] at free
    simp [same, free]
  · simp [beq_eq_false_iff_ne.mpr same, given]

/-- An operation that has a name gets it again. -/
theorem toolName_stays {next : Seen}
    (stays : ∀ name other, seen.lookup name = some other → next.lookup name = some other)
    (has : next.lookup (toolName seen operationId) = some operationId) :
    toolName next operationId = toolName seen operationId := by
  have still {name : Text} (other : taken seen operationId name = true) :
      taken next operationId name = true := by
    obtain ⟨prev, given, different⟩ := taken_iff.mp other
    exact taken_iff.mpr ⟨prev, stays _ _ given, different⟩
  have free : taken next operationId (toolName seen operationId) = false := by simp [taken, has]
  by_cases other : taken seen operationId (sanitizeName operationId) = true
  · have named : toolName seen operationId =
        candidate operationId (Nat.find (exists_free seen operationId)) := if_pos other
    rw [named] at free ⊢
    rw [toolName, if_pos (still other), (Nat.find_eq_iff _).mpr ⟨free, fun m before => ?_⟩]
    simpa using still (by simpa using Nat.find_min (exists_free seen operationId) before)
  · have named : toolName seen operationId = sanitizeName operationId := if_neg other
    rw [named] at free ⊢
    rw [toolName, if_neg (by simp [free])]

/-- What is known of the names given so far. -/
def Kept (seen : Seen) : Prop :=
  ∀ name other, (name, other) ∈ seen → seen.lookup name = some other ∧ toolName seen other = name

theorem kept_cons (kept : Kept seen) (operationId : Text) :
    Kept ((toolName seen operationId, operationId) :: seen) := by
  intro name other member
  rcases mem_cons.mp member with same | member
  · cases same
    exact ⟨lookup_cons_self, toolName_stays (fun _ _ => lookup_stays) lookup_cons_self⟩
  · obtain ⟨given, again⟩ := kept name other member
    refine ⟨lookup_stays given, ?_⟩
    rw [toolName_stays (fun _ _ => lookup_stays) (again.symm ▸ lookup_stays given), again]

/-- A name is new exactly if the operation is. -/
theorem toolName_new (kept : Kept seen) (operationId : Text) :
    toolName seen operationId ∉ seen.map Prod.fst ↔ operationId ∉ seen.map Prod.snd := by
  constructor
  · rintro new known
    obtain ⟨⟨name, _⟩, member, rfl⟩ := mem_map.mp known
    exact new (mem_map.mpr ⟨_, member, (kept _ _ member).2.symm⟩)
  · rintro new known
    obtain ⟨⟨name, other⟩, member, rfl⟩ := mem_map.mp known
    have free := toolName_free seen operationId
    simp only [taken, (kept _ _ member).1, Option.any_some, bne_eq_false_iff_eq] at free
    exact new (mem_map.mpr ⟨_, member, free⟩)

theorem names_distinct (kept : Kept seen) (ids : List Text) :
    (names seen ids).Nodup ∧ List.Disjoint (names seen ids) (seen.map Prod.fst) ↔
      ids.Nodup ∧ List.Disjoint ids (seen.map Prod.snd) := by
  induction ids generalizing seen with
  | nil => simp [names]
  | cons operationId rest hypothesis =>
    have later := hypothesis (kept_cons kept operationId)
    have new := toolName_new kept operationId
    simp only [names, nodup_cons, map_cons, disjoint_cons_left,
      disjoint_cons_right] at later ⊢
    tauto

theorem names_prefix (ids more : List Text) : names seen ids <+: names seen (ids ++ more) := by
  induction ids generalizing seen with
  | nil => exact nil_prefix
  | cons operationId rest hypothesis => exact cons_prefix_cons.mpr ⟨rfl, hypothesis⟩

def WellFormed (name : Text) : Prop := name ≠ [] ∧ name.length ≤ 64 ∧ ∀ char ∈ name, allowed char

theorem hash8_allowed (raw : Text) : ∀ char ∈ hash8 raw, allowed char := by
  intro char member
  obtain ⟨place, -, rfl⟩ := mem_map.mp member
  have digits : ∀ digit < 16, allowed (Nat.digitChar digit) := by decide
  exact digits _ (Nat.mod_lt _ (by decide))

theorem suffix_allowed (operationId : Text) (n : Nat) :
    ∀ char ∈ suffix operationId n, allowed char := by
  have underscore : allowed '_' = true := by decide
  have hashed := hash8_allowed operationId
  have number {n : Nat} : ∀ char ∈ Nat.toDigits 10 n, allowed char := fun char member => by
    have digit := Nat.isDigit_of_mem_toDigits (by decide) (by decide) member
    simp [allowed, Char.isAlphanum, digit]
  cases n <;> simp only [suffix, forall_mem_cons, forall_mem_append]
  · exact ⟨underscore, hashed⟩
  · exact ⟨underscore, hashed, underscore, number⟩

theorem sanitizeName_formed (some_ : operationId ≠ []) : WellFormed (sanitizeName operationId) := by
  have mapped : ∀ char ∈ operationId.map fun char => if allowed char then char else '_',
      allowed char := by
    intro char member
    obtain ⟨raw, -, rfl⟩ := mem_map.mp member
    split
    · assumption
    · decide
  unfold sanitizeName
  simp only
  split
  · refine ⟨by simp, by simp [hash8], ?_⟩
    simp only [forall_mem_append, forall_mem_cons]
    exact ⟨fun char member => mapped char (mem_of_mem_take member), by decide,
      hash8_allowed _⟩
  · exact ⟨by simpa using some_, by omega, mapped⟩

/-- Where another operation has the sanitised name, there is room for the hash and for the
number that the hashed names of other operations make necessary. -/
def Roomy (seen : Seen) (operationId : Text) : Prop :=
  ∀ n, taken seen operationId (sanitizeName operationId) = true →
    (∀ m < n, taken seen operationId (candidate operationId m) = true) →
    taken seen operationId (candidate operationId n) = false →
    (sanitizeName operationId).length + (suffix operationId n).length ≤ 64

theorem toolName_formed (some_ : operationId ≠ []) :
    WellFormed (toolName seen operationId) ↔ Roomy seen operationId := by
  obtain ⟨nonempty, short, chars⟩ := sanitizeName_formed some_
  by_cases other : taken seen operationId (sanitizeName operationId) = true
  · have first := Nat.find_spec (exists_free seen operationId)
    have before {m : Nat} := Nat.find_min (exists_free seen operationId) (m := m)
    simp only [Bool.not_eq_false] at before
    rw [toolName, if_pos other]
    constructor
    · intro formed n _ blocked free
      have same : Nat.find (exists_free seen operationId) = n :=
        (Nat.find_eq_iff _).mpr ⟨free, fun m less => by simp [blocked m less]⟩
      rw [same] at formed
      simpa [candidate] using formed.2.1
    · intro roomy
      refine ⟨by simp [candidate, nonempty], ?_, ?_⟩
      · simpa [candidate] using roomy _ other (fun _ => before) first
      · exact forall_mem_append.mpr ⟨chars, suffix_allowed _ _⟩
  · rw [toolName, if_neg other]
    exact ⟨fun _ _ taken => absurd taken other, fun _ => ⟨nonempty, short, chars⟩⟩

/-- Every operation is roomy when its turn comes. -/
def EachRoomy (seen : Seen) : List Text → Prop
  | [] => True
  | operationId :: rest =>
    Roomy seen operationId ∧ EachRoomy ((toolName seen operationId, operationId) :: seen) rest

theorem names_formed (seen : Seen) {ids : List Text}
    (identified : ∀ operationId ∈ ids, operationId ≠ []) :
    (∀ name ∈ names seen ids, WellFormed name) ↔ EachRoomy seen ids := by
  induction ids generalizing seen with
  | nil => simp [names, EachRoomy]
  | cons operationId rest hypothesis =>
    obtain ⟨nonempty, identified⟩ := forall_mem_cons.mp identified
    simp only [names, forall_mem_cons, EachRoomy, hypothesis _ identified,
      toolName_formed nonempty]

theorem find_named (distinct : (tools.map McpTool.name).Nodup) {tool : McpTool Value}
    (member : tool ∈ tools) :
    tools.find? (·.name == tool.name) = some tool := by
  induction tools with
  | nil => cases member
  | cons head rest hypothesis =>
    obtain ⟨new, distinct⟩ := nodup_cons.mp distinct
    rcases mem_cons.mp member with rfl | member
    · simp
    · have different : head.name ≠ tool.name := fun same =>
        new (same ▸ mem_map_of_mem member)
      simp [beq_eq_false_iff_ne.mpr different, hypothesis distinct member]

/-- What a client may rely on. `resolves` is the look-up of a call by name, and `stable`
compares with a document whose operations continue those of this one. -/
structure Faithful (buildInputSchema : Value → Text → Except Text (Value × Bool))
    (paths : Paths Value) (tools : List (McpTool Value)) : Prop where
  formed : ∀ tool ∈ tools, WellFormed tool.name
  distinct : (tools.map McpTool.name).Nodup
  resolves : ∀ tool ∈ tools, tools.find? (·.name == tool.name) = some tool
  stable : ∀ longer others, operations paths <+: operations longer →
    specToTools buildInputSchema (some longer) = .ok others →
    tools.map McpTool.name <+: others.map McpTool.name

theorem tools_named {buildInputSchema : Value → Text → Except Text (Value × Bool)}
    {paths : Paths Value} {tools : List (McpTool Value)}
    (identified : ∀ op ∈ operations paths, op.2.2.operationId ≠ some [])
    (built : specToTools buildInputSchema (some paths) = .ok tools) :
    Faithful buildInputSchema paths tools ↔
      (operationIds (operations paths)).Nodup ∧
        EachRoomy [] (operationIds (operations paths)) := by
  have named := addTools_names built
  have kept : Kept [] := nofun
  have distinct := names_distinct kept (operationIds (operations paths))
  simp only [map_nil, disjoint_nil_right, and_true, ← named] at distinct
  have nonempty : ∀ operationId ∈ operationIds (operations paths), operationId ≠ [] := by
    rintro _ member rfl
    obtain ⟨op, member, given⟩ := mem_filterMap.mp member
    exact identified op member given
  have formed := names_formed [] nonempty
  rw [← named, forall_mem_map] at formed
  rw [← distinct, ← formed]
  constructor
  · exact fun faithful => ⟨faithful.distinct, faithful.formed⟩
  · rintro ⟨distinct, formed⟩
    refine ⟨formed, distinct, fun _ => find_named distinct, fun longer others longer_ made => ?_⟩
    obtain ⟨more, continued⟩ := longer_
    rw [named, addTools_names made, ← continued, operationIds, operationIds,
      filterMap_append]
    exact names_prefix _ _

/-- Two ids of which the sanitised names are one name. -/
def shortIds : Paths Unit :=
  [("/a".toList, some [("get".toList, ⟨some "a.b".toList, none, none, ()⟩)]),
    ("/b".toList, some [("get".toList, ⟨some "a_b".toList, none, none, ()⟩)])]

theorem tools_named_short : ∃ tools,
    Faithful (fun _ _ => .ok ((), true)) shortIds tools ↔
      (operationIds (operations shortIds)).Nodup ∧
        EachRoomy [] (operationIds (operations shortIds)) :=
  ⟨_, tools_named (by decide) rfl⟩

def dotted : Text := List.replicate 55 'a' ++ ['.']

def underlined : Text := List.replicate 55 'a' ++ ['_']

/-- With 56 characters there is no room for the hash. -/
def longIds : Paths Unit :=
  [("/a".toList, some [("get".toList, ⟨some dotted, none, none, ()⟩),
    ("put".toList, ⟨some underlined, none, none, ()⟩)])]

theorem tool_name_too_long : ∃ tools : List (McpTool Unit),
    (∀ op ∈ operations longIds, op.2.2.operationId ≠ some []) ∧
      specToTools (fun _ _ => .ok ((), true)) (some longIds) = .ok tools ∧
      ¬ Faithful (fun _ _ => .ok ((), true)) longIds tools := by
  refine ⟨_, by decide, rfl, fun faithful => ?_⟩
  have short : (toolName [(toolName [] dotted, dotted)] underlined).length ≤ 64 :=
    (faithful.formed _ (.tail _ (.head _))).2.1
  have first : toolName [] dotted = sanitizeName dotted := if_neg (by decide)
  have other : taken [(sanitizeName dotted, dotted)] underlined (sanitizeName underlined) =
      true := by decide
  have sanitized : (sanitizeName underlined).length = 56 := by decide
  rw [first, toolName, if_pos other, candidate, length_append, sanitized] at short
  have hashed : ∀ n, 9 ≤ (suffix underlined n).length := by
    rintro (_ | n) <;> simp [suffix, hash8]
  have long := hashed (Nat.find (exists_free [(sanitizeName dotted, dotted)] underlined))
  omega

end OnlyJs.Serve.McpTools
