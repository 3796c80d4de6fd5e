import OnlyJs.Contract.Agreement

/-!
# What a contract accepts

The channels of texts are read type by type, like the reference reads them, except
for numbers that are not finite and for the null that stands in when no type fits.
-/

namespace OnlyJs.Contract

open Bridge Lib List

variable {host : Host} {pats : List String}

variable {raw : String} {value : Value}

theorem coerceType_of_reads {ty : String} (reads : Reads raw ty value) :
    coerceType raw ty = some value := by
  cases reads with
  | integer n parsed =>
    have read : coerceType raw "integer" = (Decimal.parseInt64 raw.toList).map .int := rfl
    rw [read, parsed]
    rfl
  | number bits parsed =>
    have read : coerceType raw "number" = (Binary64.parse raw.toList).map _ := rfl
    rw [read, parsed]
    rfl
  | yes same | no same | null same =>
    rw [same]
    rfl
  | string => rfl

theorem reads_of_coerceType {ty : String} (coerced : coerceType raw ty = some value)
    (finite : ¬ (ty = "number" ∧ Binary64.parse raw.toList = some .nonFinite)) :
    Reads raw ty value := by
  unfold coerceType at coerced
  split at coerced
  · rename_i integer
    rw [integer]
    obtain ⟨n, parsed, rfl⟩ := Option.map_eq_some_iff.mp coerced
    exact .integer n parsed
  · split at coerced
    · rename_i number
      obtain ⟨parsed, read, same⟩ := Option.map_eq_some_iff.mp coerced
      cases parsed with
      | finite bits =>
        cases same
        rw [number]
        exact .number bits read
      | nonFinite => exact absurd ⟨number, read⟩ finite
    · split at coerced
      · rename_i boolean
        rw [boolean]
        split at coerced
        · rename_i same
          cases coerced
          exact .yes same
        · obtain ⟨same, coerced⟩ := Option.ite_none_right_eq_some.mp coerced
          cases coerced
          exact .no same
      · split at coerced
        · rename_i null
          rw [null]
          obtain ⟨same, coerced⟩ := Option.ite_none_right_eq_some.mp coerced
          cases coerced
          exact .null same
        · obtain ⟨string, coerced⟩ := Option.ite_none_right_eq_some.mp coerced
          cases coerced
          rw [string]
          exact .string

/-- The first type that a text is coerced to is the first that it reads as. -/
theorem coerceOne_iff {target : List String}
    (finite : ∀ ty, (target.find? fun ty => (coerceType raw ty).isSome) = some ty →
      ¬ (ty = "number" ∧ Binary64.parse raw.toList = some .nonFinite)) :
    coerceOne raw target = some value ↔ ReadsFirst raw target value := by
  unfold coerceOne
  induction target with
  | nil =>
    constructor
    · intro absurd
      cases absurd
    · intro absurd
      cases absurd
  | cons ty rest ih =>
    cases coerced : coerceType raw ty with
    | some read =>
      have first : (List.find? (fun ty => (coerceType raw ty).isSome) (ty :: rest)) =
          some ty := by
        rw [find?_cons, coerced]
        rfl
      have reads := reads_of_coerceType coerced (finite ty first)
      rw [findSome?_cons, coerced]
      constructor
      · intro same
        cases same
        exact .here ty rest value reads
      · intro first
        cases first with
        | here _ _ _ own => rw [← coerceType_of_reads own, coerced]
        | later _ _ _ unread _ => exact absurd reads (unread read)
    | none =>
      have unread : ∀ other, ¬ Reads raw ty other := by
        intro other reads
        rw [coerceType_of_reads reads] at coerced
        cases coerced
      have later : (List.find? (fun ty => (coerceType raw ty).isSome) (ty :: rest)) =
          rest.find? fun ty => (coerceType raw ty).isSome := by
        rw [find?_cons, coerced]
        rfl
      rw [later] at finite
      rw [findSome?_cons, coerced]
      rw [ih finite]
      constructor
      · intro reads
        exact .later ty rest value unread reads
      · intro first
        cases first with
        | here _ _ _ own => exact absurd own (unread value)
        | later _ _ _ _ reads => exact reads

variable {chan : String}

theorem coerceEntry_iff {schema : Value} {entry : String × String}
    (plain : ∀ target, targetOf host schema entry.1 = .ok target → TextPlain entry.2 target)
    (field : String × Value) :
    coerceEntry host schema chan entry = .ok field ↔ ReadsAs host schema entry field := by
  obtain ⟨name, raw⟩ := entry
  obtain ⟨own, value⟩ := field
  unfold coerceEntry ReadsAs
  rw [Fallible.bind_ok]
  have read : ∀ target, targetOf host schema name = .ok target →
      (coerceOne raw target = some value ↔ ReadsFirst raw target value) ∧
        (coerceOne raw target = none → "null" ∉ target) := by
    intro target declared
    have fits := plain target declared
    unfold TextPlain at fits
    have finite : ∀ ty, (target.find? fun ty => (coerceType raw ty).isSome) = some ty →
        ¬ (ty = "number" ∧ Binary64.parse raw.toList = some .nonFinite) := by
      intro ty found
      rw [found] at fits
      exact fits
    refine ⟨coerceOne_iff finite, fun coerced => ?_⟩
    have unfound : (target.find? fun ty => (coerceType raw ty).isSome) = none := by
      rw [find?_eq_none]
      intro ty member
      have unread := findSome?_eq_none_iff.mp coerced ty member
      rw [unread]
      exact Bool.false_ne_true
    rw [unfound] at fits
    exact fits
  constructor
  · rintro ⟨target, declared, coerced⟩
    have declared := Fallible.map_error_ok.mp declared
    obtain ⟨reads, unread⟩ := read target declared
    split at coerced
    · rename_i found
      cases coerced
      exact ⟨rfl, target, declared, reads.mp found⟩
    · rename_i found
      rw [if_neg (unread found)] at coerced
      cases coerced
  · rintro ⟨rfl, target, declared, reads⟩
    refine ⟨target, Fallible.map_error_ok.mpr declared, ?_⟩
    rw [(read target declared).1.mpr reads]

variable {src : List (String × String)}

theorem coerceEntries_iff {schema : Value}
    (plain : ∀ entry ∈ src, ∀ target, targetOf host schema entry.1 = .ok target →
      TextPlain entry.2 target)
    (fields : Fields) :
    src.mapM (coerceEntry host schema chan) = .ok fields ↔
      List.Forall₂ (ReadsAs host schema) src fields := by
  rw [Fallible.mapM_ok]
  induction src generalizing fields with
  | nil => rw [List.forall₂_nil_left_iff, List.forall₂_nil_left_iff]
  | cons entry rest ih =>
    rw [List.forall₂_cons_left_iff, List.forall₂_cons_left_iff]
    apply exists_congr
    intro field
    apply exists_congr
    intro others
    rw [coerceEntry_iff (plain entry mem_cons_self) field,
      ih (fun other member => plain other (mem_cons_of_mem _ member)) others]

variable {schema : Option Value}

theorem checkScalars_iff (audited : ∀ declared, schema = some declared → Audited host pats declared)
    (plain : ScalarsPlain host schema src) :
    checkScalars host pats schema src chan = .ok () ↔ ScalarsMean host schema src := by
  unfold checkScalars ScalarsMean
  cases schema with
  | none => exact iff_of_true rfl fun _ absurd => nomatch absurd
  | some declared =>
    obtain ⟨texts, values⟩ := plain declared rfl
    have channel : (coerceScalars host declared src chan >>= fun value =>
        checkValue host pats declared value chan) = .ok () ↔
        ∃ fields, List.Forall₂ (ReadsAs host declared) src fields ∧
          Satisfies host declared (.object fields) := by
      rw [Fallible.bind_ok]
      constructor
      · rintro ⟨value, coerced, checked⟩
        unfold coerceScalars at coerced
        cases entries : src.mapM (coerceEntry host declared chan) with
        | error e =>
          rw [entries] at coerced
          cases coerced
        | ok fields =>
          rw [entries] at coerced
          cases coerced
          have related := (coerceEntries_iff texts fields).mp entries
          exact ⟨fields, related, (checkValue_iff declared (.object fields) chan
            (audited declared rfl) (values fields related)).mp checked⟩
      · rintro ⟨fields, related, satisfied⟩
        refine ⟨.object fields, ?_, (checkValue_iff declared (.object fields) chan
          (audited declared rfl) (values fields related)).mpr satisfied⟩
        unfold coerceScalars
        rw [(coerceEntries_iff texts fields).mpr related]
        rfl
    rw [channel]
    constructor
    · rintro means other ⟨⟩
      exact means
    · intro means
      exact means declared rfl

theorem scalarChannel_audited {found : List String}
    (accepted : auditScalarChannel host schema chan = .ok found)
    (compiled : ∀ pattern ∈ found, pattern ∈ pats) :
    ∀ declared, schema = some declared → Audited host pats declared := by
  rintro declared rfl
  cases declared with
  | object obj =>
    obtain ⟨_, _, accepted⟩ := Fallible.bind_ok.mp accepted
    obtain ⟨inner, _, accepted⟩ := Fallible.bind_ok.mp accepted
    obtain ⟨own, audited, same⟩ := Fallible.bind_ok.mp accepted
    cases same
    refine ⟨".schema." ++ chan, own, audited, ?_⟩
    intro pattern member
    exact compiled pattern (mem_append_right _ member)
  | _ => cases accepted

/-- A host whose patterns all compile and match nothing. -/
def plainHost : Host where
  compile := fun _ => .ok ()
  isMatch := fun _ _ => false
  json := fun _ => ""
  debug := id
  float := fun _ => ""

def nameSchema : Value :=
  .object [("type", .string "object"), ("properties", .object [("name",
    .object [("type", .string "string"), ("minLength", .int 2)])])]

def nameContract : InputContract plainHost where
  params := none
  query := none
  body := some nameSchema
  pats := []
  audited := rfl

def integerSchema : Value :=
  .object [("properties", .object [("n",
    .object [("type", .array [.string "integer", .string "null"])])])]

def integerContract : InputContract plainHost where
  params := none
  query := some integerSchema
  body := none
  pats := []
  audited := rfl

theorem unread (value : Value) : ¬ ReadsFirst "abc" ["integer", "null"] value := by
  have integer : coerceType "abc" "integer" = none := rfl
  have null : coerceType "abc" "null" = none := rfl
  intro reads
  cases reads with
  | here _ _ _ own =>
    rw [coerceType_of_reads own] at integer
    cases integer
  | later _ _ _ _ others =>
    cases others with
    | here _ _ _ own =>
      rw [coerceType_of_reads own] at null
      cases null
    | later _ _ _ _ none => cases none

end OnlyJs.Contract
