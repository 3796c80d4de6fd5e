import OnlyJs.Bridge.Guard.Ownership
import OnlyJs.Bridge.Guard.Recasing

/-!
# The verdicts of the guards and the case of letters

The databases read unquoted names in any case, while the guards look a table up as it is
written. The first keyword and the test for the tenant column do not depend on the case of
letters; the tables do. A verdict is the same for every recasing of a text exactly if the
loose tables of the text decide nothing that the fixed ones leave open.
-/

namespace OnlyJs.Bridge.Guard

open Lib.LetterCase List Lib.Text

variable {sql other : List Char}

section Keywords

theorem whitespace_blind (c d : Char) (same : SameLetter c d) :
    isWhitespace c = isWhitespace d := by
  cases alpha : c.isAlpha with
  | false => rw [same.eq alpha]
  | true =>
    have plain : ∀ e : Char, e.isAlpha = true → isWhitespace e = false := by
      intro e letter
      have range := (alpha_code e).mp letter
      rw [Bool.eq_false_iff]
      simp only [isWhitespace, ne_eq, Bool.or_eq_true, Bool.and_eq_true, decide_eq_true_eq,
        beq_iff_eq]
      omega
    rw [plain c alpha, plain d (same.alpha ▸ alpha)]

theorem first_keyword_same (same : SameLetters sql other) :
    firstKeyword sql = firstKeyword other := by
  apply congrArg String.ofList
  apply SameLetters.upper
  apply SameLetters.takeWhile
  · exact same.dropWhile _ whitespace_blind
  · intro c d letter
    rw [whitespace_blind c d letter]

theorem lower_mark {c mark : Char} (plain : mark.isAlpha = false) (same : c.toLower = mark) :
    c = mark :=
  ((same ▸ same_letter_lower c : SameLetter mark c).eq plain).symm

theorem lower_pair {c mark next : Char} {rest : List Char} (plain : mark.isAlpha = false)
    (nextPlain : next.isAlpha = false)
    (apart : ∀ later, c = mark → rest = next :: later → False) :
    ∀ later, c.toLower = mark → rest.map Char.toLower = next :: later → False := by
  intro later same split
  obtain ⟨d, more, rfl, head, -⟩ := map_eq_cons_iff.mp split
  exact apart more (lower_mark plain same) (by rw [lower_mark nextPlain head])

attribute [local simp] strip

theorem strip_lower (mode : StripMode) (sql : List Char) :
    strip mode (sql.map Char.toLower) = (strip mode sql).map Char.toLower := by
  fun_induction strip mode sql with
  | case1 | case6 | case9 | case12 | case15 => rfl
  | case2 rest ih | case3 rest ih | case4 rest ih | case7 rest ih | case10 _ rest ih
  | case13 rest ih | case16 rest ih => simpa using ih
  | case5 c rest single dash bar ih =>
    have mark : c.toLower = '\x27' → False := fun same => single (lower_mark rfl same)
    have minus := lower_pair rfl rfl dash
    have slash := lower_pair rfl rfl bar
    simpa using ih
  | case8 rest closes ih =>
    have mark : ∀ later, rest.map Char.toLower = '\x27' :: later → False := by
      intro later split
      obtain ⟨c, more, rfl, head, -⟩ := map_eq_cons_iff.mp split
      exact closes more (by rw [lower_mark rfl head])
    simpa using ih
  | case11 c rest doubled single lone escape ih =>
    have mark : c.toLower = '\x27' → False := fun same => single (lower_mark rfl same)
    have twice := lower_pair rfl rfl doubled
    have last : c.toLower = '\x5c' → rest.map Char.toLower = [] → False := fun same empty =>
      lone (lower_mark rfl same) (map_eq_nil_iff.mp empty)
    have escaped : ∀ d later, c.toLower = '\x5c' → rest.map Char.toLower = d :: later →
        False := by
      intro d later same split
      obtain ⟨next, more, rfl, -, -⟩ := map_eq_cons_iff.mp split
      exact escape next more (lower_mark rfl same) rfl
    simpa using ih
  | case14 c rest other ih =>
    have line : c.toLower = '\n' → False := fun same => other (lower_mark rfl same)
    simpa using ih
  | case17 c rest closes ih =>
    have star := lower_pair rfl rfl closes
    simpa using ih

theorem mentions_tenant_same (same : SameLetters sql other) :
    mentionsTenant sql = mentionsTenant other := by
  unfold mentionsTenant stripLiterals
  rw [← strip_lower, ← strip_lower, same.lower]

end Keywords

section Verdicts

def TenantContext.IsRegistered (context : TenantContext) (table : String) : Prop :=
  (context.registry.get table).isSome

def TenantContext.IsScoped (context : TenantContext) (table : String) : Prop :=
  (context.registry.get table).any TableDef.isTenantScoped

def isDdl (sql : List Char) : Bool := ddlKeywords.contains (firstKeyword sql)

def isDml (sql : List Char) : Bool := dmlKeywords.contains (firstKeyword sql)

/-- The text is written for the tenant of the request. -/
def TenantContext.ScopeMet (context : TenantContext) (sql : List Char) (params : List Value) :
    Prop :=
  ∃ tid, context.tenantId = some tid ∧ mentionsTenant sql = true ∧
    params.any (fun param => paramIsTenant param tid) = true

variable (context : TenantContext)

theorem registered_of_scoped {table : String} (isScoped : context.IsScoped table) :
    context.IsRegistered table := by
  unfold TenantContext.IsScoped at isScoped
  unfold TenantContext.IsRegistered
  cases found : context.registry.get table with
  | none =>
    rw [found] at isScoped
    exact Bool.noConfusion isScoped
  | some _ => rfl

theorem registered_nil (sql : List Char) :
    context.registered sql = [] ↔ ¬∃ table ∈ extractTables sql, context.IsRegistered table := by
  rw [TenantContext.registered]
  simp [TenantContext.IsRegistered]

theorem scoped_nil (sql : List Char) :
    context.scopedTables sql = [] ↔ ¬∃ table ∈ extractTables sql, context.IsScoped table := by
  rw [TenantContext.scopedTables, TenantContext.registered, filter_filter,
    filter_eq_nil_iff]
  constructor
  · rintro none ⟨table, member, isScoped⟩
    apply none table member
    rw [Bool.and_eq_true]
    exact ⟨isScoped, registered_of_scoped context isScoped⟩
  · intro none table member both
    exact none ⟨table, member, (Bool.and_eq_true_iff.mp both).1⟩

theorem verdict_ok (refusal : TenantRefusal) :
    context.verdict refusal = .ok () ↔ context.guard ≠ .deny := by
  unfold TenantContext.verdict
  split
  · rename_i deny
    simp [deny]
  · rename_i other
    simp [other]

theorem check_scope_ok (sql : List Char) (params : List Value) :
    context.checkScope sql params = .ok () ↔ (context.guard = .deny →
      (∃ table ∈ extractTables sql, context.IsScoped table) → context.ScopeMet sql params) := by
  unfold TenantContext.checkScope TenantContext.ScopeMet
  by_cases none : context.scopedTables sql = []
  · rw [if_pos none]
    have absent := (scoped_nil context sql).mp none
    exact ⟨fun _ _ found => absurd found absent, fun _ => rfl⟩
  · rw [if_neg none]
    have found : ∃ table ∈ extractTables sql, context.IsScoped table :=
      not_not.mp fun absent => none ((scoped_nil context sql).mpr absent)
    cases tenant : context.tenantId with
    | none => simp [verdict_ok, found]
    | some tid =>
      by_cases mentioned : mentionsTenant sql = false
      · simp [verdict_ok, mentioned, found]
      · have mention := eq_true_of_ne_false mentioned
        dsimp only
        rw [if_neg mentioned]
        cases bound : params.any fun param => paramIsTenant param tid with
        | true =>
          exact ⟨fun _ _ _ => ⟨tid, rfl, mention, bound⟩, fun _ => rfl⟩
        | false =>
          by_cases deny : context.guard = .deny
          · rw [if_pos ⟨rfl, deny⟩, verdict_ok]
            constructor
            · intro absent
              exact absurd deny absent
            · intro met
              obtain ⟨other, same, _, held⟩ := met deny found
              cases same
              rw [bound] at held
              exact Bool.noConfusion held
          · rw [if_neg fun both => deny both.2]
            exact ⟨fun _ denied => absurd denied deny, fun _ => rfl⟩

/-- A text is accepted by a guard that denies if it is no DDL, names a registered table where
it is DML, and is written for the tenant where it names a table with tenants. -/
theorem check_tenant_ok (sql : List Char) (params : List Value) :
    checkTenantRaw context sql params = .ok () ↔
      (context.guard = .deny → context.system = false →
        isDdl sql = false ∧
          (isDml sql = true → ∃ table ∈ extractTables sql, context.IsRegistered table) ∧
          ((∃ table ∈ extractTables sql, context.IsScoped table) →
            context.ScopeMet sql params)) := by
  unfold checkTenantRaw
  by_cases exempt : context.guard = .off ∨ context.system = true
  · rw [if_pos exempt]
    refine ⟨fun _ deny request => ?_, fun _ => rfl⟩
    rcases exempt with off | request'
    · rw [off] at deny
      cases deny
    · rw [request'] at request
      cases request
  · rw [if_neg exempt]
    obtain ⟨on, request⟩ := not_or.mp exempt
    have ddlRead : ddlKeywords.contains (firstKeyword sql) = isDdl sql := rfl
    have dmlRead : dmlKeywords.contains (firstKeyword sql) = isDml sql := rfl
    simp only [request, ddlRead, dmlRead, Bool.and_eq_true, List.isEmpty_iff]
    by_cases unseen : (isDdl sql || isDml sql) = true ∧ context.registered sql = []
    · rw [if_pos unseen, verdict_ok]
      have absent := (registered_nil context sql).mp unseen.2
      constructor
      · intro warned deny
        exact absurd deny warned
      · intro law deny
        obtain ⟨plain, seen, _⟩ := law deny trivial
        rw [plain, Bool.false_or] at unseen
        exact absent (seen unseen.1)
    · rw [if_neg unseen]
      cases ddl : isDdl sql with
      | true =>
        rw [if_pos rfl, verdict_ok]
        constructor
        · intro warned deny
          exact absurd deny warned
        · intro law deny
          cases (law deny trivial).1
      | false =>
        rw [if_neg Bool.false_ne_true, check_scope_ok]
        have seen : isDml sql = true →
            ∃ table ∈ extractTables sql, context.IsRegistered table := by
          intro dml
          by_contra absent
          exact unseen ⟨by rw [ddl, dml]; rfl, (registered_nil context sql).mpr absent⟩
        constructor
        · intro law deny _
          exact ⟨rfl, seen, law deny⟩
        · intro law deny
          exact (law deny trivial).2.2

end Verdicts

section Blindness

/-- Some table is mentioned in the same case by every recasing. -/
def MentionsFixed (sql : List Char) (holds : String → Prop) : Prop :=
  ∃ mention ∈ mentions sql, mention.loose = false ∧ holds mention.table

/-- What the tenant guard makes of a text does not hang on its loose tables. In DML without a
fixed table that is registered, each loose one that is has to be refused when it is seen, as
it is when it is not. Elsewhere a loose table with tenants has to be read or written for the
tenant, unless a fixed one is refused. -/
def TenantContext.CaseBlind (context : TenantContext) (sql : List Char) (params : List Value) :
    Prop :=
  context.guard = .deny → context.system = false → isDdl sql = false →
    ∀ mention ∈ mentions sql, mention.loose = true → context.IsRegistered mention.table →
      (isDml sql = true → ¬MentionsFixed sql context.IsRegistered →
        context.IsScoped mention.table ∧ ¬context.ScopeMet sql params) ∧
      ((isDml sql = true → MentionsFixed sql context.IsRegistered) →
        context.IsScoped mention.table →
          context.ScopeMet sql params ∨ MentionsFixed sql context.IsScoped)

/-- What the ownership guard makes of a text does not hang on its loose tables: none is
foreign, unless a fixed one is. -/
def OwnershipContext.CaseBlind (context : OwnershipContext) (sql : List Char) : Prop :=
  ∀ ctx, context.moduleCtx = some ctx → context.deny = true →
    MentionsFixed sql (context.foreign ctx) ∨
      ∀ mention ∈ mentions sql, mention.loose = true → ¬context.foreign ctx mention.table

/-- The registry of the tenant guard has no upper case. -/
def TenantContext.LowerCaseTables (context : TenantContext) : Prop :=
  ∀ table, context.IsRegistered table → LowerCase table.toList

def OwnershipContext.LowerCaseTables (context : OwnershipContext) : Prop :=
  ∀ table owner, context.ownerOf table = some owner → LowerCase table.toList

/-- The loose tables that a recasing names in lower case. -/
def SeesLoose (sql other : List Char) (holds : String → Prop) : Prop :=
  ∃ pick ∈ picked sql, isLoose sql pick = true ∧ LowerCase (named other pick) ∧
    holds (mentionOf sql pick).table

theorem recased_split (holds : String → Prop)
    (lower : ∀ table, holds table → LowerCase table.toList) (recased : Recased sql other) :
    (∃ table ∈ extractTables other, holds table) ↔
      MentionsFixed sql holds ∨ SeesLoose sql other holds := by
  rw [recased_tables holds lower recased]
  constructor
  · rintro ⟨pick, member, held, low⟩
    cases loose : isLoose sql pick with
    | false => exact .inl ⟨_, mem_map_of_mem member, loose, held⟩
    | true => exact .inr ⟨pick, member, loose, low loose, held⟩
  · rintro (⟨mention, found, fixed, held⟩ | ⟨pick, member, _, low, held⟩)
    · obtain ⟨pick, member, rfl⟩ := mem_map.mp found
      refine ⟨pick, member, held, ?_⟩
      intro loose
      rw [show isLoose sql pick = false from fixed] at loose
      exact Bool.noConfusion loose
    · exact ⟨pick, member, held, fun _ => low⟩

theorem recased_refl (sql : List Char) : Recased sql sql where
  letters := SameLetters.refl sql
  enclosed := fun _ _ => rfl

section

variable (same : SameLetters sql other)
include same

theorem scope_met_same (context : TenantContext) (params : List Value) :
    context.ScopeMet other params ↔ context.ScopeMet sql params := by
  unfold TenantContext.ScopeMet
  rw [mentions_tenant_same same]

theorem ddl_same : isDdl other = isDdl sql := by
  rw [isDdl, isDdl, first_keyword_same same]

theorem dml_same : isDml other = isDml sql := by
  rw [isDml, isDml, first_keyword_same same]

end

theorem lower_scoped {context : TenantContext} (lower : context.LowerCaseTables)
    (table : String) (isScoped : context.IsScoped table) : LowerCase table.toList :=
  lower table (registered_of_scoped context isScoped)

section

variable (context : TenantContext) (lower : context.LowerCaseTables) (params : List Value)
include context lower params

theorem tenant_fixed (blind : context.CaseBlind sql params) (recased : Recased sql other) :
    checkTenantRaw context other params = .ok () ↔
      (context.guard = .deny → context.system = false →
        isDdl sql = false ∧ (isDml sql = true → MentionsFixed sql context.IsRegistered) ∧
          (MentionsFixed sql context.IsScoped → context.ScopeMet sql params)) := by
  rw [check_tenant_ok, ddl_same recased.letters, dml_same recased.letters,
    scope_met_same recased.letters, recased_split context.IsRegistered lower recased,
    recased_split context.IsScoped (lower_scoped lower) recased]
  apply imp_congr_right
  intro deny
  apply imp_congr_right
  intro request
  apply and_congr_right
  intro plain
  have blind := blind deny request plain
  constructor
  · rintro ⟨seen, met⟩
    refine ⟨fun dml => ?_, fun fixed => met (.inl fixed)⟩
    by_contra unfixed
    rcases seen dml with fixed | ⟨pick, member, loose, low, isRegistered⟩
    · exact unfixed fixed
    · obtain ⟨isScoped, unmet⟩ :=
        (blind _ (mem_map_of_mem member) loose isRegistered).1 dml unfixed
      exact unmet (met (.inr ⟨pick, member, loose, low, isScoped⟩))
  · rintro ⟨seen, met⟩
    refine ⟨fun dml => .inl (seen dml), ?_⟩
    rintro (fixed | ⟨pick, member, loose, low, isScoped⟩)
    · exact met fixed
    · have isRegistered := registered_of_scoped context isScoped
      rcases (blind _ (mem_map_of_mem member) loose isRegistered).2 seen isScoped with
        done | fixed
      · exact done
      · exact met fixed

theorem tenant_blind
    (law : ∀ other, Recased sql other → (checkTenantRaw context other params = .ok () ↔
      checkTenantRaw context sql params = .ok ())) :
    context.CaseBlind sql params := by
  intro deny request plain mention member loose isRegistered
  obtain ⟨pick, chosen, rfl⟩ := mem_map.mp member
  have one := recase_recased sql fun i => decide (i ∈ pick.2.2)
  have none := recase_recased sql fun _ => false
  have agree := (law _ one).trans (law _ none).symm
  rw [check_tenant_ok, check_tenant_ok, ddl_same one.letters, ddl_same none.letters,
    dml_same none.letters, scope_met_same one.letters,
    chosen_tables context.IsRegistered lower chosen loose,
    chosen_tables context.IsScoped (lower_scoped lower) chosen loose,
    upper_tables context.IsRegistered lower,
    upper_tables context.IsScoped (lower_scoped lower)] at agree
  simp only [deny, request, plain, forall_const, true_and] at agree
  constructor
  · intro dml unfixed
    have refused : ¬((MentionsFixed sql context.IsScoped ∨
        context.IsScoped (mentionOf sql pick).table) → context.ScopeMet sql params) := by
      intro met
      exact unfixed ((agree.mp ⟨fun _ => .inr isRegistered, met⟩).1 dml)
    obtain ⟨seen, unmet⟩ := Classical.not_imp.mp refused
    refine ⟨?_, unmet⟩
    rcases seen with ⟨mention, found, fixed, isScoped⟩ | isScoped
    · exact absurd ⟨mention, found, fixed, registered_of_scoped context isScoped⟩ unfixed
    · exact isScoped
  · intro seen isScoped
    by_contra neither
    obtain ⟨unmet, unfixed⟩ := not_or.mp neither
    have accepted := agree.mpr ⟨seen, fun fixed => absurd fixed unfixed⟩
    exact unmet (accepted.2 (.inr isScoped))

end

theorem lower_foreign {context : OwnershipContext} (lower : context.LowerCaseTables)
    (ctx : ModuleDeps) (table : String) (foreign : context.foreign ctx table) :
    LowerCase table.toList := by
  obtain ⟨owner, owned, _⟩ := foreign
  exact lower table owner owned

theorem ownership_blind (context : OwnershipContext) (lower : context.LowerCaseTables)
    (memo : SqlMemo) :
    (∀ other, Recased sql other →
      ((checkRaw context memo other).1 = .ok () ↔ (checkRaw context memo sql).1 = .ok ())) ↔
      context.CaseBlind sql := by
  simp only [check_raw_ok]
  constructor
  · intro law ctx calling deny
    by_contra neither
    obtain ⟨unfixed, loosely⟩ := not_or.mp neither
    apply loosely
    intro mention member loose foreign
    obtain ⟨pick, chosen, rfl⟩ := mem_map.mp member
    have one := law _ (recase_recased sql fun i => decide (i ∈ pick.2.2))
    have none := law _ (recase_recased sql fun _ => false)
    have accepted := (one.trans none.symm).mpr ?_ ctx calling deny
    · apply accepted
      apply (chosen_tables (context.foreign ctx) (lower_foreign lower ctx) chosen loose).mpr
      exact .inr foreign
    · intro other same _ found
      rw [calling] at same
      cases same
      exact unfixed ((upper_tables (context.foreign ctx) (lower_foreign lower ctx)).mp found)
  · intro blind other recased
    apply forall_congr'
    intro ctx
    apply imp_congr_right
    intro calling
    apply imp_congr_right
    intro deny
    have fixed : ∀ {text : List Char}, Recased sql text →
        ((∃ table ∈ extractTables text, context.foreign ctx table) ↔
          MentionsFixed sql (context.foreign ctx)) := by
      intro text recased
      rw [recased_split (context.foreign ctx) (lower_foreign lower ctx) recased]
      refine or_iff_left_of_imp ?_
      rintro ⟨pick, member, loose, _, foreign⟩
      rcases blind ctx calling deny with fixed | clear
      · exact fixed
      · exact absurd foreign (clear _ (mem_map_of_mem member) loose)
    rw [fixed recased, fixed (recased_refl sql)]

/-- The verdicts on a text and its recasings agree exactly if no guard hangs on its loose
tables. -/
theorem verdicts_blind_iff (tenant : TenantContext) (ownership : OwnershipContext)
    (memo : SqlMemo) (lowerTables : tenant.LowerCaseTables)
    (lowerOwned : ownership.LowerCaseTables) (sql : List Char) (params : List Value) :
    (∀ other, Recased sql other →
      (checkTenantRaw tenant other params = .ok () ↔ checkTenantRaw tenant sql params = .ok ()) ∧
        ((checkRaw ownership memo other).1 = .ok () ↔ (checkRaw ownership memo sql).1 = .ok ())) ↔
      tenant.CaseBlind sql params ∧ ownership.CaseBlind sql := by
  constructor
  · intro law
    constructor
    · exact tenant_blind tenant lowerTables params fun other recased => (law other recased).1
    · exact (ownership_blind ownership lowerOwned memo).mp fun other recased =>
        (law other recased).2
  · rintro ⟨tenantBlind, ownershipBlind⟩ other recased
    constructor
    · rw [tenant_fixed tenant lowerTables params tenantBlind recased,
        tenant_fixed tenant lowerTables params tenantBlind (recased_refl sql)]
    · exact (ownership_blind ownership lowerOwned memo).mpr ownershipBlind other recased

def ordersTenant : TenantContext where
  guard := .deny
  tenantId := some "t1"
  system := false
  registry := {
    tables := Finmap.singleton "orders" {
      columns := Finmap.singleton "tenant_id" { sortable := true, ty := .text }
      primaryKey := []
      shared := false } }

/-- The orders belong to `shop`, on which `blog` does not depend. -/
def ordersOwnership : OwnershipContext where
  moduleName := some "blog"
  modules := [{ name := "blog", deps := [] }]
  owners := Finmap.singleton "orders" (some "shop")
  deny := true

theorem orders_lower : LowerCase "orders".toList := by
  intro c member
  have all : ("orders".toList.all fun c => c.toLower = c) = true := by decide
  exact of_decide_eq_true (all_eq_true.mp all c member)

theorem orders_registered : ordersTenant.LowerCaseTables := by
  intro table isRegistered
  by_cases same : table = "orders"
  · rw [same]
    exact orders_lower
  · exfalso
    unfold TenantContext.IsRegistered SchemaRegistry.get ordersTenant at isRegistered
    rw [Option.isSome_iff_ne_none] at isRegistered
    apply isRegistered
    apply Finmap.lookup_eq_none.mpr
    rw [Finmap.mem_singleton]
    exact same

theorem orders_owned : ordersOwnership.LowerCaseTables := by
  intro table owner owned
  by_cases same : table = "orders"
  · rw [same]
    exact orders_lower
  · exfalso
    have missing : ordersOwnership.owners.lookup table = none := by
      apply Finmap.lookup_eq_none.mpr
      exact fun member => same (Finmap.mem_singleton _ _ _ |>.mp member)
    rw [OwnershipContext.ownerOf, missing] at owned
    cases owned

theorem verdicts_blind_upper :
    (∀ other, Recased "SELECT 1".toList other →
      (checkTenantRaw ordersTenant other [] = .ok () ↔
        checkTenantRaw ordersTenant "SELECT 1".toList [] = .ok ()) ∧
      ((checkRaw ordersOwnership .empty other).1 = .ok () ↔
        (checkRaw ordersOwnership .empty "SELECT 1".toList).1 = .ok ())) ↔
      ordersTenant.CaseBlind "SELECT 1".toList [] ∧
        ordersOwnership.CaseBlind "SELECT 1".toList :=
  verdicts_blind_iff ordersTenant ordersOwnership .empty orders_registered orders_owned
    "SELECT 1".toList []

/-- Both guards refuse the orders in lower case, and neither does in upper case. -/
theorem upper_case_escapes :
    Recased "select * from orders".toList "SELECT * FROM ORDERS".toList ∧
      checkTenantRaw ordersTenant "select * from orders".toList [] =
        .error (.noCondition ["orders"]) ∧
      checkTenantRaw ordersTenant "SELECT * FROM ORDERS".toList [] = .ok () ∧
      (checkRaw ordersOwnership .empty "select * from orders".toList).1 =
        .error ⟨"orders", "shop", "blog", "raw sql"⟩ ∧
      (checkRaw ordersOwnership .empty "SELECT * FROM ORDERS".toList).1 = .ok () := by
  have raised : recase "select * from orders".toList (fun _ => false) =
      "SELECT * FROM ORDERS".toList := by decide +kernel
  have recased := recase_recased "select * from orders".toList fun _ => false
  rw [raised] at recased
  refine ⟨recased, ?_, ?_, ?_, ?_⟩ <;> decide +kernel

end Blindness

end OnlyJs.Bridge.Guard
