import OnlyJs.Contract.Reference

/-!
# What the audit establishes

An audited schema has well-formed types, patterns that are compiled, and audited
parts. Everything else that it leaves open is left to the check.
-/

namespace OnlyJs.Contract

open Bridge Lib List

/-- The audit passes, and the patterns it meets are among the compiled ones. -/
def Audited (host : Host) (pats : List String) (schema : Value) : Prop :=
  ∃ path found, auditKeywords host path schema = .ok found ∧ ∀ pattern ∈ found, pattern ∈ pats

variable {host : Host} {pats : List String}

variable {path : String} {obj : Fields} {found : List String} {declared : Value}

theorem auditProperties_lookup (accepted : auditProperties host path obj = .ok found)
    (listed : obj.lookup "properties" = some declared) :
    ∃ props, declared = .object props ∧ auditProps host path props = .ok found := by
  induction obj with
  | nil => cases listed
  | cons entry rest ih =>
    obtain ⟨key, value⟩ := entry
    rw [auditProperties] at accepted
    rw [lookup_cons] at listed
    by_cases here : key = "properties"
    · rw [if_pos here] at accepted
      have same : ("properties" == key) = true := beq_iff_eq.mpr here.symm
      rw [same] at listed
      cases listed
      cases declared with
      | object props => exact ⟨props, rfl, accepted⟩
      | _ => cases accepted
    · rw [if_neg here] at accepted
      have other : ("properties" == key) = false := beq_false_of_ne (Ne.symm here)
      rw [other] at listed
      exact ih accepted listed

theorem auditItems_lookup (accepted : auditItems host path obj = .ok found)
    (listed : obj.lookup "items" = some declared) :
    auditKeywords host (path ++ ".items") declared = .ok found := by
  induction obj with
  | nil => cases listed
  | cons entry rest ih =>
    obtain ⟨key, value⟩ := entry
    rw [auditItems] at accepted
    rw [lookup_cons] at listed
    by_cases here : key = "items"
    · rw [if_pos here] at accepted
      have same : ("items" == key) = true := beq_iff_eq.mpr here.symm
      rw [same] at listed
      cases listed
      exact accepted
    · rw [if_neg here] at accepted
      have other : ("items" == key) = false := beq_false_of_ne (Ne.symm here)
      rw [other] at listed
      exact ih accepted listed

theorem auditProps_lookup {props : Fields} (accepted : auditProps host path props = .ok found)
    (compiled : ∀ pattern ∈ found, pattern ∈ pats) {name : String} {sub : Value}
    (listed : props.lookup name = some sub) : Audited host pats sub := by
  induction props generalizing found with
  | nil => cases listed
  | cons entry rest ih =>
    obtain ⟨key, value⟩ := entry
    obtain ⟨_, _, accepted⟩ := Fallible.bind_ok.mp accepted
    obtain ⟨first, audited, accepted⟩ := Fallible.bind_ok.mp accepted
    obtain ⟨others, later, same⟩ := Fallible.bind_ok.mp accepted
    cases same
    rw [lookup_cons] at listed
    cases here : name == key with
    | true =>
      rw [here] at listed
      cases listed
      refine ⟨path ++ ".properties." ++ key, first, audited, ?_⟩
      intro pattern member
      exact compiled pattern (mem_append_left _ member)
    | false =>
      rw [here] at listed
      refine ih later ?_ listed
      intro pattern member
      exact compiled pattern (mem_append_right _ member)

/-- What an audited object schema has. -/
structure NodeAudited (host : Host) (pats : List String) (obj : Fields) : Prop where
  type : ∀ declared, obj.lookup "type" = some declared →
    ∃ types, declaredTypes host declared = .ok types
  pattern : ∀ declared, obj.lookup "pattern" = some declared →
    ∃ pattern, declared = .string pattern ∧ pattern ∈ pats
  enumerated : ∀ declared, obj.lookup "enum" = some declared → ∃ arr, declared = .array arr
  required : ∀ declared, obj.lookup "required" = some declared →
    ∃ entries, declared = .array entries ∧ ∀ entry ∈ entries, ∃ name, entry = .string name
  number : ∀ key ∈ ["minLength", "maxLength", "minItems", "maxItems", "minimum", "maximum"],
    ∀ declared, obj.lookup key = some declared → isNumber declared = true
  properties : ∀ declared, obj.lookup "properties" = some declared →
    ∃ props, declared = .object props ∧
      ∀ name sub, props.lookup name = some sub → Audited host pats sub
  items : ∀ declared, obj.lookup "items" = some declared → Audited host pats declared

theorem auditType_ok (accepted : auditType host path obj = .ok ())
    (listed : obj.lookup "type" = some declared) :
    ∃ types, declaredTypes host declared = .ok types := by
  rw [auditType, listed] at accepted
  have accepted := Fallible.map_error_ok.mp accepted
  cases known : declaredTypes host declared with
  | ok types => exact ⟨types, rfl⟩
  | error e =>
    rw [known] at accepted
    cases accepted

theorem auditPattern_ok (accepted : auditPattern host path obj = .ok found)
    (listed : obj.lookup "pattern" = some declared) :
    ∃ pattern, declared = .string pattern ∧ pattern ∈ found := by
  rw [auditPattern, listed] at accepted
  cases declared with
  | string text =>
    dsimp only at accepted
    split at accepted
    · cases accepted
      exact ⟨text, rfl, mem_singleton_self text⟩
    · cases accepted
  | _ => cases accepted

theorem auditEnum_ok (accepted : auditEnum path obj = .ok ())
    (listed : obj.lookup "enum" = some declared) :
    ∃ arr, declared = .array arr := by
  rw [auditEnum, listed] at accepted
  cases declared with
  | array arr => exact ⟨arr, rfl⟩
  | _ => cases accepted

theorem auditRequired_ok (accepted : auditRequired path obj = .ok ())
    (listed : obj.lookup "required" = some declared) :
    ∃ entries, declared = .array entries ∧ ∀ entry ∈ entries, ∃ name, entry = .string name := by
  rw [auditRequired, listed] at accepted
  cases declared with
  | array entries =>
    refine ⟨entries, rfl, ?_⟩
    intro entry member
    have texts := any_eq_false.mp (Fallible.reject_ok.mp accepted) entry member
    cases entry with
    | string name => exact ⟨name, rfl⟩
    | _ => exact absurd rfl texts
  | _ => cases accepted

theorem auditNumber_ok {key : String} (accepted : auditNumber path obj key = .ok ())
    (listed : obj.lookup key = some declared) : isNumber declared = true := by
  rw [auditNumber, listed] at accepted
  have number := Fallible.reject_ok.mp accepted
  cases shown : isNumber declared with
  | true => rfl
  | false =>
    rw [shown] at number
    cases number

theorem Audited.node (audited : Audited host pats (.object obj)) :
    NodeAudited host pats obj := by
  obtain ⟨path, found, accepted, compiled⟩ := audited
  obtain ⟨own, node, accepted⟩ := Fallible.bind_ok.mp accepted
  obtain ⟨inner, properties, accepted⟩ := Fallible.bind_ok.mp accepted
  obtain ⟨items, parts, same⟩ := Fallible.bind_ok.mp accepted
  cases same
  obtain ⟨_, _, node⟩ := Fallible.bind_ok.mp node
  obtain ⟨_, type, node⟩ := Fallible.bind_ok.mp node
  obtain ⟨patterns, pattern, node⟩ := Fallible.bind_ok.mp node
  obtain ⟨_, enumerated, node⟩ := Fallible.bind_ok.mp node
  obtain ⟨_, required, node⟩ := Fallible.bind_ok.mp node
  obtain ⟨_, numbers, same⟩ := Fallible.bind_ok.mp node
  cases same
  refine ⟨fun _ => auditType_ok type, ?_, fun _ => auditEnum_ok enumerated,
    fun _ => auditRequired_ok required, ?_, ?_, ?_⟩
  · intro declared listed
    obtain ⟨text, same, member⟩ := auditPattern_ok pattern listed
    exact ⟨text, same, compiled text
      (mem_append_left _ (mem_append_left _ member))⟩
  · intro key keyword declared listed
    exact auditNumber_ok ((Fallible.forM_ok _).mp numbers key keyword) listed
  · intro declared listed
    obtain ⟨props, same, inside⟩ := auditProperties_lookup properties listed
    refine ⟨props, same, fun name sub member => auditProps_lookup inside ?_ member⟩
    intro text member
    exact compiled text (mem_append_left _ (mem_append_right _ member))
  · intro declared listed
    refine ⟨path ++ ".items", items, auditItems_lookup parts listed, ?_⟩
    intro text member
    exact compiled text (mem_append_right _ member)

end OnlyJs.Contract
