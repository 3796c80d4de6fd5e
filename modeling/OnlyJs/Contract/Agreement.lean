import OnlyJs.Contract.Keywords

/-!
# The check and the declaration

By induction over the value: where no keyword that applies to a part of the value
has a form that the check does not handle, the check of an audited schema passes
exactly on the values that satisfy it.
-/

namespace OnlyJs.Contract

open Bridge Lib

variable {host : Host} {pats : List String}

variable {obj : Fields}

theorem declaredProps_eq {props : Fields}
    (listed : (obj.lookup "properties").bind asObject = some props) :
    declaredProps obj = props := by
  unfold declaredProps
  rw [listed]
  rfl

theorem NodeAudited.props (node : NodeAudited host pats obj) {name : String} {sub : Value}
    (listed : (declaredProps obj).lookup name = some sub) :
    Audited host pats sub := by
  unfold declaredProps at listed
  cases properties : obj.lookup "properties" with
  | none =>
    rw [properties] at listed
    cases listed
  | some declared =>
    obtain ⟨props, rfl, parts⟩ := node.properties declared properties
    rw [properties] at listed
    exact parts name sub listed

theorem closed_iff (plain : AdditionalPlain obj) (value : Value) :
    closed obj = false ↔
      match obj.lookup "additionalProperties" with
      | none => True
      | some (.bool flag) => flag = true
      | some sub => Satisfies host sub value := by
  unfold closed
  cases listed : obj.lookup "additionalProperties" with
  | none => exact iff_of_true rfl trivial
  | some declared =>
    obtain ⟨flag, rfl⟩ := plain declared listed
    cases flag
    · exact iff_of_false (fun absurd => nomatch absurd) (fun absurd => nomatch absurd)
    · exact iff_of_true rfl rfl

theorem closed_fields_iff (absent : (obj.lookup "properties").bind asObject = none)
    (fields : Fields) (plain : FieldsPlain obj fields) :
    (closed obj && !fields.isEmpty) = false ↔ FieldsSatisfy host obj fields := by
  have none_declared : declaredProps obj = [] := by
    unfold declaredProps
    rw [absent]
    rfl
  induction fields with
  | nil => exact iff_of_true (Bool.and_false _) trivial
  | cons entry rest ih =>
    obtain ⟨name, value⟩ := entry
    rw [FieldsPlain, FieldPlain, none_declared] at plain
    have own : closed obj = false ↔ FieldSatisfies host obj (name, value) := by
      rw [FieldSatisfies, none_declared]
      exact closed_iff plain.1 value
    have others : (closed obj && !rest.isEmpty) = false ↔ FieldsSatisfy host obj rest :=
      ih plain.2
    rw [FieldsSatisfy, ← own, ← others]
    change (closed obj && true) = false ↔ _
    rw [Bool.and_true]
    constructor
    · intro free
      rw [free]
      exact ⟨rfl, rfl⟩
    · intro both
      exact both.1

theorem goOn_iff (node : NodeAudited host pats obj) {value : Value} {rest : Except String Unit}
    {means : Prop} (path : String) (formed : NullableFormed obj)
    (plain : ¬ LetsNull obj value → TypeMeans obj value →
      EnumPlain obj value ∧ (EnumMeans obj value → (rest = .ok () ↔ means))) :
    goOn (checkHead host obj value path) rest = .ok () ↔
      NullableFormed obj ∧
        (LetsNull obj value ∨ (TypeMeans obj value ∧ EnumMeans obj value ∧ means)) := by
  rcases checkHead_iff node (fun lets fits => (plain lets fits).1) path with
    ⟨lets, head⟩ | ⟨lets, fits, listed, head⟩ | ⟨lets, fails, error, head⟩
  · rw [head]
    exact iff_of_true rfl ⟨formed, .inl lets⟩
  · rw [head]
    change rest = _ ↔ _
    rw [(plain lets fits).2 listed]
    constructor
    · intro kept
      exact ⟨formed, .inr ⟨fits, listed, kept⟩⟩
    · rintro ⟨_, passes | ⟨_, _, kept⟩⟩
      · exact absurd passes lets
      · exact kept
  · rw [head]
    apply iff_of_false
    · intro absurd
      cases absurd
    · rintro ⟨_, passes | ⟨fits, listed, _⟩⟩
      · exact lets passes
      · exact fails ⟨fits, listed⟩

theorem Audited.object {schema : Value} (audited : Audited host pats schema) :
    ∃ obj, schema = .object obj := by
  obtain ⟨path, found, accepted, _⟩ := audited
  cases schema with
  | object obj => exact ⟨obj, rfl⟩
  | _ => cases accepted

theorem bind_unit_ok {first rest : Except String Unit} :
    (first >>= fun _ => rest) = .ok () ↔ first = .ok () ∧ rest = .ok () := by
  rw [Fallible.bind_ok]
  constructor
  · rintro ⟨⟨⟩, one, other⟩
    exact ⟨one, other⟩
  · rintro ⟨one, other⟩
    exact ⟨(), one, other⟩

mutual

theorem checkValue_iff (schema value : Value) (path : String)
    (audited : Audited host pats schema) (plain : Plain schema value) :
    checkValue host pats schema value path = .ok () ↔ Satisfies host schema value := by
  obtain ⟨obj, rfl⟩ := audited.object
  have node := audited.node
  match value with
  | .object fields =>
    rw [Plain] at plain
    rw [checkValue, Satisfies]
    apply goOn_iff node path plain.1
    intro lets fits
    refine ⟨(plain.2 lets fits).1, fun listed => ?_⟩
    have inner := (plain.2 lets fits).2 listed
    rw [bind_unit_ok, checkRequired_ok node]
    apply and_congr_right
    intro _
    cases properties : (obj.lookup "properties").bind asObject with
    | some props =>
      dsimp only
      rw [← declaredProps_eq properties]
      exact checkFields_iff obj fields path node inner
    | none =>
      dsimp only
      rw [Fallible.reject_ok]
      exact closed_fields_iff properties fields inner
  | .array items =>
    rw [Plain] at plain
    rw [checkValue, Satisfies]
    apply goOn_iff node path plain.1
    intro lets fits
    refine ⟨(plain.2 lets fits).1, fun listed => ?_⟩
    have ⟨inner, counts⟩ := (plain.2 lets fits).2 listed
    rw [bind_unit_ok, checkItemCounts_ok _ _ counts]
    apply and_congr_left
    intro _
    exact checkItems_iff (obj.lookup "items") items 0 path (node.items) inner
  | .string text =>
    rw [Plain] at plain
    rw [checkValue, Satisfies]
    apply goOn_iff node path plain.1
    intro lets fits
    exact ⟨(plain.2 lets fits).1, fun listed =>
      checkString_ok node text path ((plain.2 lets fits).2 listed)⟩
  | .int n | .double bits =>
    rw [Plain] at plain
    rw [checkValue, Satisfies]
    apply goOn_iff node path plain.1
    intro lets fits
    exact ⟨(plain.2 lets fits).1, fun listed =>
      checkNumber_ok node rfl ((plain.2 lets fits).2 listed) path⟩
  | .null | .bool flag =>
    rw [Plain] at plain
    rw [checkValue, Satisfies]
    apply goOn_iff node path plain.1
    intro lets fits
    exact ⟨(plain.2 lets fits).1, fun _ => iff_of_true rfl trivial⟩
termination_by structural value

theorem checkFields_iff (obj fields : Fields) (path : String)
    (node : NodeAudited host pats obj) (plain : FieldsPlain obj fields) :
    checkFields host pats obj (declaredProps obj) fields path = .ok () ↔
      FieldsSatisfy host obj fields := by
  match fields with
  | [] => exact iff_of_true rfl trivial
  | entry :: rest =>
    rw [FieldsPlain] at plain
    rw [checkFields, FieldsSatisfy, bind_unit_ok]
    exact and_congr (checkField_iff obj entry path node plain.1)
      (checkFields_iff obj rest path node plain.2)
termination_by structural fields

theorem checkField_iff (obj : Fields) (entry : String × Value) (path : String)
    (node : NodeAudited host pats obj) (plain : FieldPlain obj entry) :
    checkField host pats obj (declaredProps obj) entry path = .ok () ↔
      FieldSatisfies host obj entry := by
  match entry with
  | (name, value) =>
    rw [FieldPlain] at plain
    rw [checkField, FieldSatisfies]
    cases listed : (declaredProps obj).lookup name with
    | some sub =>
      rw [listed] at plain
      exact checkValue_iff sub value (path ++ "." ++ name) (node.props listed) plain
    | none =>
      rw [listed] at plain
      dsimp only
      rw [Fallible.reject_ok]
      exact closed_iff plain value
termination_by structural entry

theorem checkItems_iff (sub : Option Value) (items : List Value) (index : Nat) (path : String)
    (audited : ∀ schema, sub = some schema → Audited host pats schema)
    (plain : ItemsPlain sub items) :
    checkItems host pats sub items index path = .ok () ↔ ItemsSatisfy host sub items := by
  match items with
  | [] => exact iff_of_true rfl trivial
  | item :: rest =>
    cases sub with
    | none => exact iff_of_true rfl trivial
    | some schema =>
      rw [ItemsPlain] at plain
      rw [checkItems, ItemsSatisfy, bind_unit_ok]
      exact and_congr
        (checkValue_iff schema item (path ++ "[" ++ toString index ++ "]")
          (audited schema rfl) plain.1)
        (checkItems_iff (some schema) rest (index + 1) path audited plain.2)
termination_by structural items

end

end OnlyJs.Contract
