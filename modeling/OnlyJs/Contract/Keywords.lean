import OnlyJs.Contract.Audited

/-!
# The keywords one by one

Where a keyword is written in a form that the check handles, the check of it passes
exactly if the value has what the keyword declares.
-/

namespace OnlyJs.Contract

open Bridge Lib Option

variable {host : Host} {pats : List String}

theorem matchesType_iff (value : Value) (ty : String) :
    matchesType value ty = true ↔ HasType value ty := by
  constructor
  · intro fits
    cases value with
    | int n =>
      rcases Bool.or_eq_true_iff.mp fits with same | same
      · rw [of_decide_eq_true same]
        exact .integer n
      · rw [of_decide_eq_true same]
        exact .whole n
    | null =>
      rw [of_decide_eq_true fits]
      exact .null
    | bool flag =>
      rw [of_decide_eq_true fits]
      exact .boolean flag
    | double bits =>
      rw [of_decide_eq_true fits]
      exact .double bits
    | string text =>
      rw [of_decide_eq_true fits]
      exact .string text
    | array items =>
      rw [of_decide_eq_true fits]
      exact .array items
    | object fields =>
      rw [of_decide_eq_true fits]
      exact .object fields
  · intro fits
    cases fits <;> rfl

/-- The types that a declaration lists. -/
def Lists : Value → String → Prop
  | .string name, ty => ty = name
  | .array entries, ty => .string ty ∈ entries
  | _, _ => False

theorem norm_ok {name known : String} (accepted : norm host name = .ok known) : known = name := by
  unfold norm at accepted
  split at accepted
  · cases accepted
    rfl
  · cases accepted

theorem declaredTypes_lists {declared : Value} {types : List String}
    (accepted : declaredTypes host declared = .ok types) (ty : String) :
    ty ∈ types ↔ Lists declared ty := by
  cases declared with
  | string name =>
    rw [declaredTypes] at accepted
    cases known : norm host name with
    | error e =>
      rw [known] at accepted
      cases accepted
    | ok same =>
      rw [known] at accepted
      cases accepted
      rw [norm_ok known]
      exact List.mem_singleton
  | array entries =>
    cases entries with
    | nil => cases accepted
    | cons item items =>
      have related := Fallible.mapM_ok.mp accepted
      clear accepted
      generalize item :: items = listed at related ⊢
      change ty ∈ types ↔ Value.string ty ∈ listed
      induction related with
      | nil => simp only [List.not_mem_nil]
      | @cons entry name _ _ first _ ih =>
        have named : entry = .string name := by
          cases entry with
          | string text => rw [norm_ok first]
          | _ => cases first
        rw [List.mem_cons, List.mem_cons, ih, named, Value.string.injEq]
  | _ => cases accepted

variable {obj : Fields} {value : Value}

theorem typeMeans_iff {declared : Value} (listed : obj.lookup "type" = some declared) :
    TypeMeans obj value ↔ ∃ ty, Lists declared ty ∧ HasType value ty := by
  unfold TypeMeans
  rw [listed]
  cases declared with
  | string name =>
    constructor
    · intro fits
      exact ⟨name, rfl, fits⟩
    · rintro ⟨ty, rfl, fits⟩
      exact fits
  | array entries => exact Iff.rfl
  | null | bool | int | double | object =>
    constructor
    · intro absurd
      exact absurd.elim
    · rintro ⟨ty, absurd, _⟩
      exact absurd

theorem checkType_ok (node : NodeAudited host pats obj) (value : Value) (path : String) :
    checkType host obj value path = .ok () ↔ TypeMeans obj value := by
  cases listed : obj.lookup "type" with
  | none =>
    unfold checkType TypeMeans
    rw [listed]
    exact iff_of_true rfl trivial
  | some declared =>
    obtain ⟨types, known⟩ := node.type declared listed
    rw [typeMeans_iff listed]
    unfold checkType
    rw [listed]
    dsimp only
    rw [known]
    change Fallible.reject _ _ = _ ↔ _
    rw [Fallible.reject_ok, Bool.not_eq_false', List.any_eq_true]
    apply exists_congr
    intro ty
    rw [declaredTypes_lists known, matchesType_iff]

theorem sameNumber_int (x y : Int) : sameNumber (.int x) (.int y) = (x == y) := by
  have positive : (Binary64.one : Int) ≠ 0 := by
    have := Binary64.one_pos
    omega
  rw [Bool.eq_iff_iff]
  change ((some (x * (Binary64.one : Int)) == some (y * (Binary64.one : Int))) = true) ↔ _
  rw [beq_iff_eq, beq_iff_eq, Option.some.injEq]
  exact Int.mul_eq_mul_right_iff positive

theorem sameNumber_double (x y : UInt64) :
    sameNumber (.double x) (.double y) = (Binary64.ofBits x == Binary64.ofBits y) := by
  rw [Bool.eq_iff_iff]
  change ((some (Binary64.ofBits x) == some (Binary64.ofBits y)) = true) ↔ _
  rw [beq_iff_eq, beq_iff_eq, Option.some.injEq]

mutual

/-- Where no integer meets a double, strict equality is equality of the exact values. -/
theorem eqWith_unmixed (a b : Value) (apart : mixed a b = false) :
    eqWith strictNumber a b = eqWith sameNumber a b := by
  match a with
  | .null | .bool _ | .string _ => cases b <;> rfl
  | .int x =>
    cases b with
    | int y => exact (sameNumber_int x y).symm
    | double y => cases apart
    | _ => rfl
  | .double x =>
    cases b with
    | int y => cases apart
    | double y => exact (sameNumber_double x y).symm
    | _ => rfl
  | .array xs =>
    cases b with
    | array ys =>
      rw [mixed] at apart
      rw [eqWith, eqWith]
      exact eqItems_unmixed xs ys apart
    | _ => rfl
  | .object xs =>
    cases b with
    | object ys =>
      rw [mixed] at apart
      rw [eqWith, eqWith]
      exact eqFields_unmixed xs ys apart
    | _ => rfl
termination_by structural a

theorem eqItems_unmixed (xs ys : List Value) (apart : mixedItems xs ys = false) :
    eqItems strictNumber xs ys = eqItems sameNumber xs ys := by
  match xs, ys with
  | [], [] | [], _ :: _ | _ :: _, [] => rfl
  | x :: xs, y :: ys =>
    rw [mixedItems] at apart
    obtain ⟨first, rest⟩ := Bool.or_eq_false_iff.mp apart
    rw [eqItems, eqItems, eqWith_unmixed x y first, eqItems_unmixed xs ys rest]
termination_by structural xs

theorem eqFields_unmixed (xs ys : Fields) (apart : mixedFields xs ys = false) :
    eqFields strictNumber xs ys = eqFields sameNumber xs ys := by
  match xs, ys with
  | [], [] | [], _ :: _ | _ :: _, [] => rfl
  | x :: xs, y :: ys =>
    rw [mixedFields] at apart
    obtain ⟨first, rest⟩ := Bool.or_eq_false_iff.mp apart
    rw [eqFields, eqFields, eqField_unmixed x y first, eqFields_unmixed xs ys rest]
termination_by structural xs

theorem eqField_unmixed (x y : String × Value) (apart : mixedField x y = false) :
    eqField strictNumber x y = eqField sameNumber x y := by
  match x with
  | (name, value) =>
    rw [mixedField] at apart
    rw [eqField, eqField, eqWith_unmixed value y.2 apart]
termination_by structural x

end

variable {a b : Value}

theorem numericEq_unsigned {x y : Nat} (signed : asI64 a = none ∨ asI64 b = none)
    (left : asU64 a = some x) (right : asU64 b = some y) : numericEq a b = decide (x = y) := by
  unfold numericEq
  rw [left, right]
  rcases signed with none | none
  · rw [none]
  · rw [none]
    cases asI64 a <;> rfl

theorem numericEq_float (signed : asI64 a = none ∨ asI64 b = none)
    (unsigned : asU64 a = none ∨ asU64 b = none) :
    numericEq a b = decide (asF64 a = asF64 b) := by
  unfold numericEq
  rcases signed with none | none <;> rcases unsigned with other | other <;> rw [none, other]
  · cases asU64 a <;> rfl
  · cases asI64 a <;> rfl
  · cases asI64 a <;> cases asU64 a <;> rfl

theorem numericEq_int (x y : Int) : numericEq (.int x) (.int y) = true ↔ x = y := by
  by_cases small : x < 2 ^ 63 ∧ y < 2 ^ 63
  · have left : asI64 (.int x) = some x := if_pos small.1
    have right : asI64 (.int y) = some y := if_pos small.2
    unfold numericEq
    rw [left, right]
    exact decide_eq_true_iff
  · have signed : asI64 (.int x) = none ∨ asI64 (.int y) = none := by
      by_cases left : x < 2 ^ 63
      · exact .inr (if_neg fun right => small ⟨left, right⟩)
      · exact .inl (if_neg left)
    by_cases natural : 0 ≤ x ∧ 0 ≤ y
    · rw [numericEq_unsigned signed (if_pos natural.1) (if_pos natural.2), decide_eq_true_iff]
      omega
    · -- One is negative and the other beyond the signed range: rounding keeps them apart.
      have signs : (x < 0 ∧ 0 < y) ∨ (y < 0 ∧ 0 < x) := by omega
      rcases signs with ⟨left, right⟩ | ⟨left, right⟩
      · rw [numericEq_float signed (.inl (if_neg (by omega))), decide_eq_true_iff]
        have apart := Binary64.ofInt_ne left right
        exact ⟨fun same => absurd (Option.some.inj same) apart, fun same => by omega⟩
      · rw [numericEq_float signed (.inr (if_neg (by omega))), decide_eq_true_iff]
        have apart := (Binary64.ofInt_ne left right).symm
        exact ⟨fun same => absurd (Option.some.inj same) apart, fun same => by omega⟩

theorem numericEq_same (left : isNumber a = true) (right : isNumber b = true)
    (exacts : mixed a b = true → Exact a ∧ Exact b) : numericEq a b = sameNumber a b := by
  have compared : asF64 a = exact a → asF64 b = exact b →
      decide (asF64 a = asF64 b) = sameNumber a b := by
    intro first second
    rw [first, second]
    exact (beq_eq_decide _ _).symm
  cases a with
  | int x =>
    cases b with
    | int y => rw [sameNumber_int, Bool.eq_iff_iff, numericEq_int, beq_iff_eq]
    | double y =>
      have ⟨first, second⟩ := exacts rfl
      rw [numericEq_float (.inr rfl) (.inr rfl)]
      exact compared first second
    | _ => cases right
  | double x =>
    cases b with
    | int y =>
      have ⟨first, second⟩ := exacts rfl
      exact compared first second
    | double y =>
      exact compared rfl rfl
    | _ => cases right
  | _ => cases left

theorem eqWith_number {number : Value → Value → Bool} (left : isNumber a = true)
    (right : isNumber b = true) : eqWith number a b = number a b := by
  cases a with
  | int | double =>
    cases b with
    | int | double => rfl
    | _ => cases right
  | _ => cases left

theorem valuesEq_same {entry : Value} (plain : PairPlain entry value) :
    valuesEq entry value = eqWith sameNumber entry value := by
  unfold valuesEq
  by_cases numbers : isNumber entry = true ∧ isNumber value = true
  · rw [if_pos (Bool.and_eq_true_iff.mpr numbers), eqWith_number numbers.1 numbers.2]
    exact numericEq_same numbers.1 numbers.2 fun meets => (plain meets).2.2
  · have other : (isNumber entry && isNumber value) = false := by
      rw [Bool.eq_false_iff, Ne, Bool.and_eq_true_iff]
      exact numbers
    rw [other]
    apply eqWith_unmixed
    apply Bool.eq_false_iff.mpr
    intro meets
    have ⟨left, right, _⟩ := plain meets
    exact numbers ⟨left, right⟩

theorem enumContains_iff (plain : EnumPlain obj value) {arr : List Value}
    (listed : obj.lookup "enum" = some (.array arr)) :
    enumContains arr value = true ↔ EnumMeans obj value := by
  unfold EnumMeans enumContains
  rw [listed, List.any_eq_true]
  apply exists_congr
  intro entry
  apply and_congr_right
  intro member
  rw [valuesEq_same (plain arr listed entry member)]

theorem letsNull_iff :
    (nullable obj && isNull value) = true ↔ LetsNull obj value := by
  rw [Bool.and_eq_true_iff]
  apply and_congr
  · unfold nullable
    cases obj.lookup "nullable" with
    | none => simp
    | some declared => cases declared <;> simp [asBool]
  · cases value <;> simp [isNull]

theorem checkHead_iff (node : NodeAudited host pats obj)
    (plain : ¬ LetsNull obj value → TypeMeans obj value → EnumPlain obj value) (path : String) :
    (LetsNull obj value ∧ checkHead host obj value path = .ok false) ∨
      (¬ LetsNull obj value ∧ TypeMeans obj value ∧ EnumMeans obj value ∧
        checkHead host obj value path = .ok true) ∨
      (¬ LetsNull obj value ∧ ¬ (TypeMeans obj value ∧ EnumMeans obj value) ∧
        ∃ error, checkHead host obj value path = .error error) := by
  unfold checkHead
  by_cases lets : LetsNull obj value
  · rw [if_pos (letsNull_iff.mpr lets)]
    exact .inl ⟨lets, rfl⟩
  · rw [if_neg fun passes => lets (letsNull_iff.mp passes)]
    cases checked : checkType host obj value path with
    | error e =>
      have wrong : ¬ TypeMeans obj value := by
        intro fits
        rw [(checkType_ok node value path).mpr fits] at checked
        cases checked
      exact .inr (.inr ⟨lets, fun both => wrong both.1, e, rfl⟩)
    | ok =>
      have fits := (checkType_ok node value path).mp checked
      cases listed : obj.lookup "enum" with
      | none =>
        have free : EnumMeans obj value := by
          unfold EnumMeans
          rw [listed]
          trivial
        exact .inr (.inl ⟨lets, fits, free, rfl⟩)
      | some declared =>
        obtain ⟨arr, rfl⟩ := node.enumerated declared listed
        have means := enumContains_iff (plain lets fits) listed
        by_cases contained : enumContains arr value = true
        · exact .inr (.inl ⟨lets, fits, means.mp contained, if_pos contained⟩)
        · exact .inr (.inr ⟨lets, fun both => contained (means.mpr both.2), _,
            if_neg contained⟩)

theorem checkCount_ok {key : String} (plain : CountPlain obj key) {broken : Nat → Bool}
    {refused : Nat → String} {holds : Int → Prop}
    (means : ∀ n : Nat, broken n = false ↔ holds (n * Binary64.one)) :
    checkCount obj key broken refused = .ok () ↔ BoundMeans obj key holds := by
  unfold checkCount BoundMeans
  cases listed : obj.lookup key with
  | none => exact iff_of_true rfl fun _ absurd => nomatch absurd
  | some declared =>
    obtain ⟨n, rfl⟩ := plain declared listed
    have read : asU64 (.int n) = some n := by
      unfold asU64
      exact if_pos (Int.natCast_nonneg n)
    rw [bind_some, read]
    rw [Fallible.reject_ok, means]
    constructor
    · rintro kept bound ⟨⟩
      exact ⟨_, rfl, kept⟩
    · intro kept
      obtain ⟨units, same, kept⟩ := kept _ rfl
      cases same
      exact kept

theorem le_iff_scaled (n m : Nat) :
    n ≤ m ↔ (n : Int) * Binary64.one ≤ (m : Int) * Binary64.one := by
  rw [← Int.natCast_mul, ← Int.natCast_mul, Int.ofNat_le]
  exact (Nat.mul_le_mul_right_iff Binary64.one_pos).symm

theorem checkCounts_ok {least most : String} {count : Nat} {short long : Nat → String}
    (plain : CountPlain obj least ∧ CountPlain obj most) :
    (checkCount obj least (count < ·) short = .ok () ∧
      checkCount obj most (· < count) long = .ok ()) ↔ CountMeans obj least most count := by
  apply and_congr
  · apply checkCount_ok plain.1
    intro n
    rw [decide_eq_false_iff_not, Nat.not_lt]
    exact le_iff_scaled n count
  · apply checkCount_ok plain.2
    intro n
    rw [decide_eq_false_iff_not, Nat.not_lt]
    exact le_iff_scaled count n

theorem exact_of_number (number : isNumber value = true) :
    ∃ own, exact value = some own := by
  cases value with
  | int n | double bits => exact ⟨_, rfl⟩
  | _ => cases number

theorem checkBound_ok {key : String}
    (number : ∀ declared, obj.lookup key = some declared → isNumber declared = true)
    (plain : BoundPlain obj key value) {broken : Int → Bool} {refused : Int → String}
    {holds : Int → Prop} (means : Exact value → ∀ units, broken units = false ↔ holds units) :
    checkBound obj key broken refused = .ok () ↔ BoundMeans obj key holds := by
  unfold checkBound BoundMeans
  cases listed : obj.lookup key with
  | none => exact iff_of_true rfl fun _ absurd => nomatch absurd
  | some declared =>
    obtain ⟨bound, own⟩ := plain declared listed
    obtain ⟨units, value_eq⟩ := exact_of_number (number declared listed)
    rw [bind_some, bound, value_eq]
    rw [Fallible.reject_ok, means own]
    constructor
    · rintro kept other ⟨⟩
      exact ⟨units, value_eq, kept⟩
    · intro kept
      obtain ⟨others, same, kept⟩ := kept _ rfl
      rw [value_eq] at same
      cases same
      exact kept

section

variable (node : NodeAudited host pats obj)
include node

theorem checkNumber_ok (number : isNumber value = true)
    (plain : BoundPlain obj "minimum" value ∧ BoundPlain obj "maximum" value) (path : String) :
    checkNumber host obj value path = .ok () ↔ NumberMeans obj value := by
  obtain ⟨own, value_eq⟩ := exact_of_number number
  have parts : checkNumber host obj value path = .ok () ↔
      (checkBound obj "minimum" (fun n => (asF64 value).getD Binary64.largest < n) (fun n =>
        path ++ ": must be >= " ++ host.float n) = .ok () ∧
      checkBound obj "maximum" (fun n => n < (asF64 value).getD (-Binary64.largest)) (fun n =>
        path ++ ": must be <= " ++ host.float n) = .ok ()) := by
    unfold checkNumber
    rw [Fallible.bind_ok]
    constructor
    · rintro ⟨⟨⟩, first, second⟩
      exact ⟨first, second⟩
    · rintro ⟨first, second⟩
      exact ⟨(), first, second⟩
  rw [parts]
  apply and_congr
  · apply checkBound_ok (node.number "minimum" (by simp)) plain.1
    intro held units
    rw [held, value_eq, getD_some, decide_eq_false_iff_not, Int.not_lt]
    simp only [Option.some.injEq, exists_eq_left']
  · apply checkBound_ok (node.number "maximum" (by simp)) plain.2
    intro held units
    rw [held, value_eq, getD_some, decide_eq_false_iff_not, Int.not_lt]
    simp only [Option.some.injEq, exists_eq_left']

theorem checkPattern_ok (text path : String) :
    checkPattern host pats obj text path = .ok () ↔ PatternMeans host obj text := by
  unfold checkPattern PatternMeans
  cases listed : obj.lookup "pattern" with
  | none => exact iff_of_true rfl trivial
  | some declared =>
    obtain ⟨pattern, rfl, compiled⟩ := node.pattern declared listed
    dsimp only
    rw [if_pos compiled, Fallible.reject_ok, Bool.not_eq_false']

theorem checkString_ok (text path : String)
    (plain : CountPlain obj "minLength" ∧ CountPlain obj "maxLength") :
    checkString host pats obj text path = .ok () ↔
      CountMeans obj "minLength" "maxLength" text.toList.length ∧
        PatternMeans host obj text := by
  unfold checkString
  rw [← checkPattern_ok node text path, ← checkCounts_ok plain, Fallible.bind_ok]
  constructor
  · rintro ⟨⟨⟩, first, rest⟩
    obtain ⟨⟨⟩, second, third⟩ := Fallible.bind_ok.mp rest
    exact ⟨⟨first, second⟩, third⟩
  · rintro ⟨⟨first, second⟩, third⟩
    exact ⟨(), first, Fallible.bind_ok.mpr ⟨(), second, third⟩⟩

end

theorem checkItemCounts_ok (count : Nat) (path : String)
    (plain : CountPlain obj "minItems" ∧ CountPlain obj "maxItems") :
    checkItemCounts obj count path = .ok () ↔ CountMeans obj "minItems" "maxItems" count := by
  unfold checkItemCounts
  rw [← checkCounts_ok plain, Fallible.bind_ok]
  constructor
  · rintro ⟨⟨⟩, first, second⟩
    exact ⟨first, second⟩
  · rintro ⟨first, second⟩
    exact ⟨(), first, second⟩

theorem checkRequired_ok (node : NodeAudited host pats obj) (fields : Fields) (path : String) :
    checkRequired obj fields path = .ok () ↔ RequiredMeans obj fields := by
  unfold checkRequired RequiredMeans
  cases listed : obj.lookup "required" with
  | none => exact iff_of_true rfl trivial
  | some declared =>
    obtain ⟨entries, rfl, named⟩ := node.required declared listed
    change entries.forM _ = _ ↔ _
    rw [Fallible.forM_ok]
    apply forall_congr'
    intro entry
    apply imp_congr_right
    intro member
    obtain ⟨name, rfl⟩ := named entry member
    change Fallible.reject _ _ = _ ↔ _
    constructor
    · intro there
      refine ⟨name, rfl, ?_⟩
      cases found : fields.lookup name with
      | none =>
        rw [found] at there
        cases there
      | some value => rfl
    · rintro ⟨other, same, there⟩
      cases same
      cases found : fields.lookup name with
      | none =>
        rw [found] at there
        cases there
      | some value => rfl

end OnlyJs.Contract
