import OnlyJs.Bridge.Registry
import OnlyJs.Lib.Association
import OnlyJs.Oj.Migrate.Engine

/-!
# The migrations of a directory

A directory is read into the migrations for one dialect. The name of a file holds a sequence
number, a description and perhaps a dialect; the file of the current dialect goes before the
one for all. The numbers and descriptions are checked on all files, the choice is made for
the dialect alone.
-/

namespace OnlyJs.Oj.Migrate

open Bridge Lib Lib.Fallible List

set_option autoImplicit false

structure File where
  name : Text
  /-- The text of the file, or why it cannot be read. -/
  content : Except Text Text
deriving DecidableEq

inductive Directory where
  | absent
  | failed (error : Text)
  /-- The files in the order in which the directory lists them. -/
  | listed (files : List File)

structure MigrationFile where
  seq : Int
  desc : Text
  dialect : Option Dialect
  file : File
deriving DecidableEq

def dialectTag : Dialect → Text
  | .sqlite => "sqlite".toList
  | .mySql => "mysql".toList
  | .postgres => "pg".toList

def tagged (tag : Text) : Option Dialect :=
  [Dialect.sqlite, Dialect.mySql, Dialect.postgres].find? fun dialect => dialectTag dialect = tag

def stripSuffix (suffix text : Text) : Option Text :=
  if suffix.isSuffixOf text then some (text.take (text.length - suffix.length)) else none

def rsplitOnce (mark : Char) (text : Text) : Option (Text × Text) :=
  (Text.splitOnce mark text.reverse).map fun parts => (parts.2.reverse, parts.1.reverse)

def splitUnderscores : Text → Option (Text × Text)
  | '_' :: '_' :: rest => some ([], rest)
  | char :: rest => (splitUnderscores rest).map fun parts => (char :: parts.1, parts.2)
  | [] => none

def isWord (char : Char) : Bool := char.isAlphanum || char = '_'

def splitDialect (stem : Text) : Text × Option Dialect :=
  match rsplitOnce '.' stem with
  | some (before, tag) =>
    match tagged tag with
    | some dialect => (before, some dialect)
    | none => (stem, none)
  | none => (stem, none)

def parseFileName (name : Text) : Option (Int × Text × Option Dialect) := do
  let stem ← stripSuffix ".sql".toList name
  let (stem, dialect) := splitDialect stem
  let (seq, desc) ← splitUnderscores stem
  let seq ← Decimal.parseInt64 seq
  if !desc.all isWord || desc.isEmpty then none else some (seq, desc, dialect)

def isSql (file : File) : Bool := ".sql".toList.isSuffixOf file.name

def pathOf (dir : Text) (file : File) : Text := dir ++ '/' :: file.name

def padded (seq : Int) : Text :=
  let digits := (toString seq.natAbs).toList
  let sign : Text := if seq < 0 then ['-'] else []
  sign ++ List.replicate (4 - sign.length - digits.length) '0' ++ digits

def decimal (number : Int) : Text := (toString number).toList

def quoted (desc : Text) : Text := '"' :: desc ++ ['"']

def migrationFile (file : File) : Option MigrationFile :=
  (parseFileName file.name).map fun parts => {
    seq := parts.1
    desc := parts.2.1
    dialect := parts.2.2
    file }

def scanFile (dir : Text) (file : File) : Except Text MigrationFile :=
  match migrationFile file with
  | some entry => .ok entry
  | none => .error ("S007: ".toList ++ pathOf dir file ++
      " 文件名不合法（须 \x7bseq:04\x7d__\x7bdesc\x7d[.\x7bsqlite|mysql|pg\x7d].sql，".toList ++
      "desc 限 [A-Za-z0-9_]）".toList)

def scan (dir : Text) (files : List File) : Except Text (List MigrationFile) :=
  (files.filter isSql).mapM (scanFile dir)

def describe (dir : Text) (bySeq : List (Int × Text × File)) (entry : MigrationFile) :
    Except Text (List (Int × Text × File)) :=
  let described := Association.put bySeq entry.seq (entry.desc, entry.file)
  match bySeq.lookup entry.seq with
  | some (prev, _) =>
    if prev != entry.desc then
      .error ("S007: 序号 ".toList ++ decimal entry.seq ++ " 两文件 desc 不一致：".toList ++
        quoted prev ++ " 与 ".toList ++ quoted entry.desc ++ "（".toList ++
        pathOf dir entry.file ++
        "）\n  下一步：方言覆盖文件须同名 desc（如 0001__init.sql + 0001__init.pg.sql）".toList)
    else .ok described
  | none => .ok described

def checkGaps (dir : Text) (expected : Int) : List (Int × Text × File) → Except Text Unit
  | [] => .ok ()
  | (seq, _, file) :: rest =>
    if seq ≠ expected then
      .error ("S007: 序号空洞/乱序：第 ".toList ++ decimal expected ++ " 个迁移的 seq 是 ".toList ++
        padded seq ++ "（".toList ++ pathOf dir file ++
        "）\n  下一步：重排 migrations/ 使 seq 从 1 连续递增".toList)
    else checkGaps dir (expected + 1) rest

def choose (dialect : Dialect) (chosen : List (Int × Text × File)) (entry : MigrationFile) :
    List (Int × Text × File) :=
  match entry.dialect with
  | some other =>
    if other = dialect then Association.put chosen entry.seq (entry.desc, entry.file) else chosen
  | none =>
    if (chosen.lookup entry.seq).isSome then chosen
    else Association.put chosen entry.seq (entry.desc, entry.file)

def unixLines : Text → Text
  | '\r' :: '\n' :: rest => '\n' :: unixLines rest
  | char :: rest => char :: unixLines rest
  | [] => []

def normalizeSql (raw : Text) : Text := unixLines (raw.dropWhile (· = '\ufeff'))

def labelOf (seq : Int) (desc : Text) : Text := 'V' :: decimal seq ++ "__".toList ++ desc

def readMigration (unapplied : Text → Text → Except Text Migration) (dir : Text)
    (chosen : Int × Text × File) : Except Text Migration :=
  let (seq, desc, file) := chosen
  match file.content with
  | .error e => .error ("read ".toList ++ pathOf dir file ++ ": ".toList ++ e)
  | .ok raw =>
    match unapplied (labelOf seq desc) (normalizeSql raw) with
    | .error e => .error (pathOf dir file ++ ": ".toList ++ e)
    | .ok migration => .ok migration

structure Walk where
  order : List (Int × Text × File) → List (Int × Text × File)
  same : ∀ chosen, (order chosen).Perm chosen

def loadFiles (unapplied : Text → Text → Except Text Migration) (walk : Walk) (dir : Text)
    (files : List File) (dialect : Dialect) : Except Text (List Migration) := do
  let entries ← scan dir files
  if entries.isEmpty then return []
  let entries := entries.mergeSort fun first second => first.seq ≤ second.seq
  let bySeq ← entries.foldlM (describe dir) []
  checkGaps dir 1 (bySeq.mergeSort fun first second => first.1 ≤ second.1)
  let chosen := entries.foldl (choose dialect) []
  let out ← (walk.order chosen).mapM (readMigration unapplied dir)
  return out.mergeSort fun first second => first.version ≤ second.version

def loadMigrations (unapplied : Text → Text → Except Text Migration) (walk : Walk) (dir : Text)
    (directory : Directory) (dialect : Dialect) : Except Text (List Migration) :=
  match directory with
  | .absent => .ok []
  | .failed e => .error ("S007: read ".toList ++ dir ++ ": ".toList ++ e)
  | .listed files => loadFiles unapplied walk dir files dialect

def entriesOf (files : List File) : List MigrationFile :=
  (files.filter isSql).filterMap migrationFile

def numbers (files : List File) : List Int := ((entriesOf files).map MigrationFile.seq).dedup

def pick (entries : List MigrationFile) (dialect : Dialect) (seq : Int) : Option MigrationFile :=
  (entries.filter fun entry => entry.seq = seq ∧ entry.dialect = some dialect).getLast?.or
    (entries.filter fun entry => entry.seq = seq ∧ entry.dialect = none).head?

/-- The checks on all files: proper names, one description for a number, no gap. -/
structure Numbered (files : List File) : Prop where
  named : ∀ file ∈ files, isSql file = true → (migrationFile file).isSome = true
  described : ∀ first ∈ entriesOf files, ∀ second ∈ entriesOf files,
    first.seq = second.seq → first.desc = second.desc
  consecutive : ∀ seq, (∃ entry ∈ entriesOf files, entry.seq = seq) ↔
    1 ≤ seq ∧ seq ≤ (numbers files).length

variable {files listing : List File} {entries : List MigrationFile} {dir : Text}
variable {dialect : Dialect}

theorem scan_file_ok (file : File) (entry : MigrationFile) :
    scanFile dir file = .ok entry ↔ migrationFile file = some entry := by
  unfold scanFile
  cases migrationFile file with
  | some other => exact ⟨fun same => by cases same; rfl, fun same => by cases same; rfl⟩
  | none => exact ⟨nofun, nofun⟩

theorem scan_ok : scan dir files = .ok entries ↔
    (∀ file ∈ files, isSql file = true → (migrationFile file).isSome = true) ∧
      entries = entriesOf files := by
  rw [scan, mapM_ok_filterMap scan_file_ok]
  apply and_congr_left'
  simp only [mem_filter, and_imp]

/-- The map of descriptions after some entries. -/
structure Describes (seen : List MigrationFile) (bySeq : List (Int × Text × File)) : Prop where
  distinct : (bySeq.map Prod.fst).Nodup
  known : ∀ seq, (bySeq.lookup seq).isSome = true ↔ ∃ entry ∈ seen, entry.seq = seq
  same : ∀ entry ∈ seen, ∃ file, bySeq.lookup entry.seq = some (entry.desc, file)

variable {seen : List MigrationFile} {bySeq : List (Int × Text × File)}

theorem Describes.described (describes : Describes seen bySeq) : ∀ first ∈ seen, ∀ second ∈ seen,
      first.seq = second.seq → first.desc = second.desc := by
  intro first member second memberToo seq
  obtain ⟨file, found⟩ := describes.same first member
  obtain ⟨other, foundToo⟩ := describes.same second memberToo
  rw [seq, foundToo] at found
  exact (Prod.mk.inj (Option.some.inj found)).1.symm

variable {entry : MigrationFile}

theorem describe_ok {next : List (Int × Text × File)} :
    describe dir bySeq entry = .ok next ↔
      (∀ prev file, bySeq.lookup entry.seq = some (prev, file) → prev = entry.desc) ∧
        next = Association.put bySeq entry.seq (entry.desc, entry.file) := by
  unfold describe
  dsimp only
  cases found : bySeq.lookup entry.seq with
  | none => exact ⟨fun same => by cases same; exact ⟨nofun, rfl⟩, fun same => by rw [same.2]⟩
  | some before =>
    obtain ⟨prev, file⟩ := before
    dsimp only
    split
    · rename_i different
      refine ⟨nofun, fun both => ?_⟩
      exact absurd (both.1 prev file rfl) (bne_iff_ne.mp different)
    · rename_i same
      have equal : prev = entry.desc := by
        by_contra apart
        exact same (bne_iff_ne.mpr apart)
      refine ⟨fun accepted => ?_, fun both => by rw [both.2]⟩
      cases accepted
      exact ⟨fun _ _ found => by cases found; exact equal, rfl⟩

theorem describes_put (describes : Describes seen bySeq)
    (agrees : ∀ other ∈ seen, other.seq = entry.seq → other.desc = entry.desc) :
    Describes (seen ++ [entry]) (Association.put bySeq entry.seq (entry.desc, entry.file)) where
  distinct := Association.put_distinct describes.distinct _ _
  known := fun seq => by
    rw [Association.lookup_put]
    by_cases own : seq = entry.seq
    · rw [if_pos own]
      exact ⟨fun _ => ⟨entry, mem_append_right _ (mem_singleton_self _), own.symm⟩,
        fun _ => rfl⟩
    · rw [if_neg own, describes.known]
      constructor
      · rintro ⟨other, member, same⟩
        exact ⟨other, mem_append_left _ member, same⟩
      · rintro ⟨other, member, same⟩
        rcases mem_append.mp member with member | member
        · exact ⟨other, member, same⟩
        · rw [mem_singleton.mp member] at same
          exact absurd same.symm own
  same := fun other member => by
    rw [Association.lookup_put]
    by_cases own : other.seq = entry.seq
    · rw [if_pos own]
      rcases mem_append.mp member with member | member
      · exact ⟨entry.file, by rw [agrees other member own]⟩
      · exact ⟨entry.file, by rw [mem_singleton.mp member]⟩
    · rw [if_neg own]
      rcases mem_append.mp member with member | member
      · exact describes.same other member
      · exact absurd (congrArg MigrationFile.seq (mem_singleton.mp member)) own

/-- The descriptions are accepted exactly if no two for one number differ. -/
theorem describe_all (dir : Text) (describes : Describes seen bySeq) (later : List MigrationFile) :
    (∀ described, later.foldlM (describe dir) bySeq = .ok described →
      Describes (seen ++ later) described) ∧
    ((∀ first ∈ seen ++ later, ∀ second ∈ seen ++ later,
      first.seq = second.seq → first.desc = second.desc) →
        ∃ described, later.foldlM (describe dir) bySeq = .ok described) := by
  induction later generalizing seen bySeq with
  | nil =>
    rw [append_nil]
    exact ⟨fun described same => by cases same; exact describes, fun _ => ⟨bySeq, rfl⟩⟩
  | cons entry later ih =>
    have whole : seen ++ entry :: later = seen ++ [entry] ++ later := by
      rw [append_assoc]
      rfl
    rw [foldlM_cons, whole]
    constructor
    · intro described accepted
      obtain ⟨next, first, rest⟩ := bind_ok.mp accepted
      obtain ⟨agrees, rfl⟩ := describe_ok.mp first
      refine (ih (describes_put describes fun other member same => ?_)).1 described rest
      obtain ⟨file, found⟩ := describes.same other member
      exact agrees _ _ (same ▸ found)
    · intro agree
      have inside : entry ∈ seen ++ [entry] ++ later :=
        mem_append_left _ (mem_append_right _ (mem_singleton_self _))
      have agrees : ∀ other ∈ seen, other.seq = entry.seq → other.desc = entry.desc :=
        fun other member => agree other
          (mem_append_left _ (mem_append_left _ member)) entry inside
      obtain ⟨described, rest⟩ := (ih (describes_put describes agrees)).2 agree
      refine ⟨described, bind_ok.mpr ⟨_, describe_ok.mpr ⟨fun prev file found => ?_, rfl⟩, rest⟩⟩
      have known : (bySeq.lookup entry.seq).isSome = true := by rw [found]; rfl
      obtain ⟨other, member, same⟩ := (describes.known entry.seq).mp known
      obtain ⟨place, read⟩ := describes.same other member
      rw [same, found] at read
      cases read
      exact agrees other member same

theorem describes_nil : Describes [] [] where
  distinct := nodup_nil
  known := fun _ => ⟨nofun, nofun⟩
  same := nofun

def upTo (count : Nat) : List Int := (List.range count).map fun i : Nat => (i : Int) + 1

theorem mem_upTo {count : Nat} {seq : Int} : seq ∈ upTo count ↔ 1 ≤ seq ∧ seq ≤ count := by
  rw [upTo, mem_map]
  constructor
  · rintro ⟨i, inside, rfl⟩
    have small := mem_range.mp inside
    omega
  · rintro ⟨low, high⟩
    refine ⟨(seq - 1).toNat, mem_range.mpr ?_, ?_⟩ <;> omega

theorem pairwise_upTo (count : Nat) : (upTo count).Pairwise (· < ·) := by
  apply pairwise_map.mpr
  refine pairwise_lt_range.imp ?_
  intro first second before
  omega

theorem nodup_upTo (count : Nat) : (upTo count).Nodup :=
  (pairwise_upTo count).imp fun before => ne_of_lt before

theorem eq_upTo_iff {keys : List Int} (sorted : keys.Pairwise (· ≤ ·)) (distinct : keys.Nodup) :
    keys = upTo keys.length ↔ ∀ seq, seq ∈ keys ↔ 1 ≤ seq ∧ seq ≤ keys.length := by
  constructor
  · intro same seq
    rw [← mem_upTo, ← same]
  · intro members
    have perm : keys.Perm (upTo keys.length) :=
      (perm_ext_iff_of_nodup distinct (nodup_upTo _)).mpr fun seq =>
        (members seq).trans mem_upTo.symm
    exact perm.eq_of_pairwise' sorted ((pairwise_upTo _).imp fun before => le_of_lt before)

theorem check_gaps_ok {expected : Int} {list : List (Int × Text × File)} :
    checkGaps dir expected list = .ok () ↔
      list.map Prod.fst = (List.range list.length).map fun i : Nat => (i : Int) + expected := by
  induction list generalizing expected with
  | nil => exact ⟨fun _ => rfl, fun _ => rfl⟩
  | cons first rest ih =>
    obtain ⟨seq, desc, file⟩ := first
    have shifted : ((List.range rest.length).map Nat.succ).map
        (fun i : Nat => (i : Int) + expected) =
        (List.range rest.length).map fun i : Nat => (i : Int) + (expected + 1) := by
      rw [map_map]
      apply map_congr_left
      intro i _
      simp only [Function.comp_apply, Nat.succ_eq_add_one]
      omega
    rw [checkGaps, map_cons, length_cons, range_succ_eq_map, map_cons,
      shifted, List.cons.injEq]
    split
    · rename_i other
      refine ⟨nofun, fun both => absurd both.1 ?_⟩
      intro same
      exact other (same.trans (by omega))
    · rename_i same
      rw [ih]
      refine ⟨fun rest => ⟨?_, rest⟩, And.right⟩
      have equal : seq = expected := not_not.mp same
      omega

theorem sorted_keys {Item : Type} (key : Item → Int) (list : List Item) :
    ((list.mergeSort fun first second => decide (key first ≤ key second)).map key).Pairwise
      (· ≤ ·) := by
  have trans (a b c : Item) (first : decide (key a ≤ key b) = true)
      (second : decide (key b ≤ key c) = true) : decide (key a ≤ key c) = true :=
    decide_eq_true (le_trans (of_decide_eq_true first) (of_decide_eq_true second))
  have total (a b : Item) : (decide (key a ≤ key b) || decide (key b ≤ key a)) = true := by
    rw [Bool.or_eq_true, decide_eq_true_iff, decide_eq_true_iff]
    exact le_total _ _
  apply pairwise_map.mpr
  exact (pairwise_mergeSort trans total list).imp fun before => of_decide_eq_true before

theorem gaps_ok (describes : Describes entries bySeq) :
    checkGaps dir 1 (bySeq.mergeSort fun first second => first.1 ≤ second.1) = .ok () ↔
      ∀ seq, (∃ entry ∈ entries, entry.seq = seq) ↔
        1 ≤ seq ∧ seq ≤ ((entries.map MigrationFile.seq).dedup).length := by
  have perm := mergeSort_perm bySeq fun first second => decide (first.1 ≤ second.1)
  have sorted := sorted_keys Prod.fst bySeq
  have distinct := (perm.map Prod.fst).nodup_iff.mpr describes.distinct
  have members (seq : Int) : seq ∈ bySeq.map Prod.fst ↔ ∃ entry ∈ entries, entry.seq = seq := by
    rw [← describes.known, Association.lookup_isSome, mem_map]
    exact ⟨fun ⟨entry, member, same⟩ => ⟨entry.2, same ▸ member⟩,
      fun ⟨value, member⟩ => ⟨(seq, value), member, rfl⟩⟩
  have counted : (bySeq.map Prod.fst).length = ((entries.map MigrationFile.seq).dedup).length := by
    refine ((perm_ext_iff_of_nodup describes.distinct (nodup_dedup _)).mpr ?_).length_eq
    intro seq
    rw [members, mem_dedup, mem_map]
  have keys := eq_upTo_iff sorted distinct
  rw [length_map, length_mergeSort] at keys
  rw [check_gaps_ok, length_mergeSort, ← counted, length_map]
  refine keys.trans (forall_congr' fun seq => ?_)
  rw [(perm.map Prod.fst).mem_iff, members]

theorem pick_append_other {seq : Int}
    (other : ¬(entry.seq = seq ∧ (entry.dialect = some dialect ∨ entry.dialect = none))) :
    pick (seen ++ [entry]) dialect seq = pick seen dialect seq := by
  have first : ¬(entry.seq = seq ∧ entry.dialect = some dialect) :=
    fun both => other ⟨both.1, .inl both.2⟩
  have second : ¬(entry.seq = seq ∧ entry.dialect = none) :=
    fun both => other ⟨both.1, .inr both.2⟩
  rw [pick, pick, filter_append, filter_append, filter_singleton,
    filter_singleton, decide_eq_false first, decide_eq_false second, cond_false,
    append_nil, append_nil]

theorem pick_append_override (override : entry.dialect = some dialect) :
    pick (seen ++ [entry]) dialect entry.seq = some entry := by
  rw [pick, filter_append, filter_singleton, decide_eq_true ⟨rfl, override⟩, cond_true,
    getLast?_append]
  rfl

theorem pick_append_generic (generic : entry.dialect = none) :
    pick (seen ++ [entry]) dialect entry.seq = (pick seen dialect entry.seq).or (some entry) := by
  have first : ¬(entry.seq = entry.seq ∧ entry.dialect = some dialect) := by
    rw [generic]
    exact fun both => nomatch both.2
  rw [pick, pick, filter_append, filter_append, filter_singleton,
    filter_singleton, decide_eq_false first, decide_eq_true ⟨rfl, generic⟩, cond_false,
    cond_true, append_nil, head?_append, head?_cons, Option.or_assoc]

/-- What the entries so far have chosen. -/
structure Picks (dialect : Dialect) (seen : List MigrationFile)
    (chosen : List (Int × Text × File)) : Prop where
  distinct : (chosen.map Prod.fst).Nodup
  picked : ∀ seq, chosen.lookup seq =
    (pick seen dialect seq).map fun entry => (entry.desc, entry.file)

variable {chosen : List (Int × Text × File)}

theorem picks_choose (picks : Picks dialect seen chosen) (entry : MigrationFile) :
    Picks dialect (seen ++ [entry]) (choose dialect chosen entry) := by
  unfold choose
  cases tag : entry.dialect with
  | some other =>
    dsimp only
    by_cases own : other = dialect
    · rw [if_pos own]
      rw [own] at tag
      refine ⟨Association.put_distinct picks.distinct _ _, fun seq => ?_⟩
      rw [Association.lookup_put]
      by_cases same : seq = entry.seq
      · rw [if_pos same, same, pick_append_override tag, Option.map_some]
      · rw [if_neg same, pick_append_other fun both => same both.1.symm]
        exact picks.picked seq
    · rw [if_neg own]
      refine ⟨picks.distinct, fun seq => ?_⟩
      rw [pick_append_other]
      · exact picks.picked seq
      · rw [tag]
        rintro ⟨_, same | same⟩
        · exact own (Option.some.inj same)
        · cases same
  | none =>
    dsimp only
    by_cases already : (chosen.lookup entry.seq).isSome = true
    · rw [if_pos already]
      refine ⟨picks.distinct, fun seq => ?_⟩
      rw [picks.picked seq]
      by_cases same : seq = entry.seq
      · rw [picks.picked, Option.isSome_map] at already
        obtain ⟨before, found⟩ := Option.isSome_iff_exists.mp already
        rw [same, pick_append_generic tag, found]
        rfl
      · rw [pick_append_other fun both => same both.1.symm]
    · rw [if_neg already]
      refine ⟨Association.put_distinct picks.distinct _ _, fun seq => ?_⟩
      rw [Association.lookup_put]
      by_cases same : seq = entry.seq
      · rw [picks.picked, Option.isSome_map, Bool.not_eq_true, Option.isSome_eq_false_iff,
          Option.isNone_iff_eq_none] at already
        rw [if_pos same, same, pick_append_generic tag, already, Option.none_or,
          Option.map_some]
      · rw [if_neg same, pick_append_other fun both => same both.1.symm]
        exact picks.picked seq

theorem picks_all (picks : Picks dialect seen chosen) (later : List MigrationFile) :
    Picks dialect (seen ++ later) (later.foldl (choose dialect) chosen) := by
  induction later generalizing seen chosen with
  | nil =>
    rw [append_nil]
    exact picks
  | cons entry later ih =>
    have next := ih (picks_choose picks entry)
    rw [append_assoc] at next
    exact next

theorem filter_sorted (entries : List MigrationFile) (kept : MigrationFile → Bool) (seq : Int)
    (one : ∀ entry, kept entry = true → entry.seq = seq) :
    (entries.mergeSort fun first second => decide (first.seq ≤ second.seq)).filter kept =
      entries.filter kept := by
  have trans (a b c : MigrationFile) (first : decide (a.seq ≤ b.seq) = true)
      (second : decide (b.seq ≤ c.seq) = true) : decide (a.seq ≤ c.seq) = true :=
    decide_eq_true (le_trans (of_decide_eq_true first) (of_decide_eq_true second))
  have total (a b : MigrationFile) : (decide (a.seq ≤ b.seq) || decide (b.seq ≤ a.seq)) = true := by
    rw [Bool.or_eq_true, decide_eq_true_iff, decide_eq_true_iff]
    exact le_total _ _
  have level : (entries.filter kept).Pairwise
      fun first second => decide (first.seq ≤ second.seq) = true := by
    apply pairwise_iff_forall_sublist.mpr
    intro first second pair
    have firstKept := (mem_filter.mp (pair.subset mem_cons_self)).2
    have secondKept :=
      (mem_filter.mp (pair.subset (mem_cons_of_mem _ mem_cons_self))).2
    exact decide_eq_true (le_of_eq ((one first firstKept).trans (one second secondKept).symm))
  have inside := (sublist_mergeSort trans total level filter_sublist).filter kept
  rw [filter_filter] at inside
  simp only [Bool.and_self] at inside
  exact (inside.eq_of_length (((mergeSort_perm _ _).filter kept).length_eq.symm)).symm

theorem pick_sorted (entries : List MigrationFile) (dialect : Dialect) (seq : Int) :
    pick (entries.mergeSort fun first second => decide (first.seq ≤ second.seq)) dialect seq =
      pick entries dialect seq := by
  rw [pick, pick, filter_sorted entries _ seq fun entry kept => (of_decide_eq_true kept).1,
    filter_sorted entries _ seq fun entry kept => (of_decide_eq_true kept).1]

/-- The library reads the number and the name back from a label. -/
def Unapplies (unapplied : Text → Text → Except Text Migration) : Prop :=
  ∀ (seq : Int) (desc sql : Text), 1 ≤ seq → seq < 2 ^ 63 → desc ≠ [] →
    (∀ char ∈ desc, isWord char = true) →
      ∃ checksum, unapplied (labelOf seq desc) sql =
        .ok { version := seq, name := desc, checksum, sql }

section Load

variable {unapplied : Text → Text → Except Text Migration} {walk : Walk}
variable {ms : List Migration}

/-- The migration comes from the file. -/
def Built (unapplied : Text → Text → Except Text Migration) (entry : MigrationFile)
    (migration : Migration) : Prop :=
  ∃ raw, entry.file.content = .ok raw ∧
    unapplied (labelOf entry.seq entry.desc) (normalizeSql raw) = .ok migration

/-- The migrations of the chosen files, by number. -/
structure Loaded (unapplied : Text → Text → Except Text Migration)
    (entries : List MigrationFile) (dialect : Dialect) (ms : List Migration) : Prop where
  sorted : ms.Pairwise fun first second => first.version < second.version
  each : ∀ migration ∈ ms, ∃ entry, pick entries dialect migration.version = some entry ∧
    Built unapplied entry migration
  all : ∀ seq entry, pick entries dialect seq = some entry →
    ∃ migration ∈ ms, migration.version = seq

variable {entry : MigrationFile}

theorem pick_mem {seq : Int} (found : pick entries dialect seq = some entry) :
    entry ∈ entries ∧ entry.seq = seq ∧
      (entry.dialect = some dialect ∨ entry.dialect = none) := by
  rcases Option.or_eq_some_iff.mp found with last | ⟨_, first⟩
  · have member := mem_filter.mp (mem_of_getLast? last)
    have both := of_decide_eq_true member.2
    exact ⟨member.1, both.1, .inl both.2⟩
  · have member := mem_filter.mp (mem_of_mem_head? first)
    have both := of_decide_eq_true member.2
    exact ⟨member.1, both.1, .inr both.2⟩

theorem built_unique {first second : Migration} (one : Built unapplied entry first)
    (two : Built unapplied entry second) : first = second := by
  obtain ⟨raw, read, built⟩ := one
  obtain ⟨text, readToo, builtToo⟩ := two
  rw [read] at readToo
  cases readToo
  rw [built] at builtToo
  exact Except.ok.inj builtToo

theorem Loaded.mem_iff (loaded : Loaded unapplied entries dialect ms) (migration : Migration) :
    migration ∈ ms ↔ ∃ entry, pick entries dialect migration.version = some entry ∧
      Built unapplied entry migration := by
  refine ⟨loaded.each migration, fun ⟨entry, found, built⟩ => ?_⟩
  obtain ⟨other, member, version⟩ := loaded.all _ _ found
  obtain ⟨source, foundToo, builtToo⟩ := loaded.each other member
  rw [version, found] at foundToo
  cases foundToo
  rw [built_unique built builtToo]
  exact member

theorem Loaded.nodup (loaded : Loaded unapplied entries dialect ms) : ms.Nodup :=
  loaded.sorted.imp fun before same => absurd before (by rw [same]; exact lt_irrefl _)

theorem loaded_unique {others : List MigrationFile} {more : List Migration}
    (loaded : Loaded unapplied entries dialect ms)
    (loadedToo : Loaded unapplied others dialect more)
    (same : ∀ seq, pick entries dialect seq = pick others dialect seq) : ms = more := by
  have perm : ms.Perm more := by
    apply (perm_ext_iff_of_nodup loaded.nodup loadedToo.nodup).mpr
    intro migration
    rw [loaded.mem_iff, loadedToo.mem_iff, same]
  apply perm.eq_of_pairwise _ loaded.sorted loadedToo.sorted
  intro first second _ _ before after
  exact absurd (lt_trans before after) (lt_irrefl _)

variable {migration : Migration}

theorem read_ok {seq : Int} {desc : Text} {file : File} :
    readMigration unapplied dir (seq, desc, file) = .ok migration ↔
      ∃ raw, file.content = .ok raw ∧
        unapplied (labelOf seq desc) (normalizeSql raw) = .ok migration := by
  unfold readMigration
  dsimp only
  cases file.content with
  | error e => exact ⟨nofun, fun ⟨raw, read, _⟩ => nomatch read⟩
  | ok raw =>
    dsimp only
    constructor
    · intro built
      refine ⟨raw, rfl, ?_⟩
      split at built
      · cases built
      · rename_i migration read
        cases built
        exact read
    · rintro ⟨text, read, built⟩
      cases read
      rw [built]

theorem parsed_fields {file : File} (parsed : migrationFile file = some entry) :
    entry.seq < 2 ^ 63 ∧ entry.desc ≠ [] ∧ ∀ char ∈ entry.desc, isWord char = true := by
  obtain ⟨parts, found, rfl⟩ := Option.map_eq_some_iff.mp parsed
  unfold parseFileName at found
  obtain ⟨stem, _, found⟩ := Option.bind_eq_some_iff.mp found
  obtain ⟨halves, _, found⟩ := Option.bind_eq_some_iff.mp found
  obtain ⟨seq, read, found⟩ := Option.bind_eq_some_iff.mp found
  split at found
  · cases found
  · rename_i proper
    cases found
    rw [Bool.or_eq_true, not_or, Bool.not_eq_true', Bool.not_eq_false, all_eq_true,
      List.isEmpty_iff] at proper
    have range := (Option.filter_eq_some_iff.mp read).2
    exact ⟨(of_decide_eq_true range).2, proper.2, proper.1⟩

theorem entry_fields (member : entry ∈ entriesOf files) :
    entry.seq < 2 ^ 63 ∧ entry.desc ≠ [] ∧ ∀ char ∈ entry.desc, isWord char = true := by
  obtain ⟨file, _, parsed⟩ := mem_filterMap.mp member
  exact parsed_fields parsed

theorem built_fields (documented : Unapplies unapplied) (numbered : Numbered files)
    (member : entry ∈ entriesOf files) {raw : Text} (read : entry.file.content = .ok raw) :
    ∃ checksum, Built unapplied entry
      { version := entry.seq, name := entry.desc, checksum, sql := normalizeSql raw } := by
  obtain ⟨small, nonempty, words⟩ := entry_fields member
  have positive := ((numbered.consecutive entry.seq).mp ⟨entry, member, rfl⟩).1
  obtain ⟨checksum, built⟩ :=
    documented entry.seq entry.desc (normalizeSql raw) positive small nonempty words
  exact ⟨checksum, raw, read, built⟩

variable {chosen : List (Int × Text × File)}

theorem chosen_built (picks : Picks dialect entries chosen) {choice : Int × Text × File}
    (member : choice ∈ chosen) (read : readMigration unapplied dir choice = .ok migration) :
    ∃ entry, pick entries dialect choice.1 = some entry ∧ Built unapplied entry migration := by
  obtain ⟨seq, desc, file⟩ := choice
  have found := Association.lookup_of_mem picks.distinct member
  rw [picks.picked] at found
  obtain ⟨entry, picked, same⟩ := Option.map_eq_some_iff.mp found
  obtain ⟨raw, text, built⟩ := read_ok.mp read
  cases same
  refine ⟨entry, picked, raw, text, ?_⟩
  rw [(pick_mem picked).2.1]
  exact built

/-- The migrations read from the chosen files, in the order of their numbers. -/
theorem loaded_of_read (documented : Unapplies unapplied) (numbered : Numbered files)
    (picks : Picks dialect (entriesOf files) chosen) {out : List Migration}
    (read : (walk.order chosen).mapM (readMigration unapplied dir) = .ok out) :
    Loaded unapplied (entriesOf files) dialect
      (out.mergeSort fun first second => first.version ≤ second.version) := by
  have related := mapM_ok.mp read
  have perm := mergeSort_perm out fun first second => decide (first.version ≤ second.version)
  have inside {choice : Int × Text × File} (member : choice ∈ walk.order chosen) :
      choice ∈ chosen := (walk.same chosen).mem_iff.mp member
  have version {choice : Int × Text × File} {migration : Migration}
      (member : choice ∈ walk.order chosen)
      (read : readMigration unapplied dir choice = .ok migration) :
      ∃ entry, pick (entriesOf files) dialect choice.1 = some entry ∧
        Built unapplied entry migration ∧ migration.version = choice.1 := by
    obtain ⟨entry, picked, built⟩ := chosen_built picks (inside member) read
    obtain ⟨listed, number, _⟩ := pick_mem picked
    have readable := built
    obtain ⟨raw, text, _⟩ := readable
    obtain ⟨checksum, builtToo⟩ := built_fields documented numbered listed text
    refine ⟨entry, picked, built, ?_⟩
    rw [built_unique built builtToo]
    exact number
  have versions : out.map Migration.version = (walk.order chosen).map Prod.fst := by
    apply forall₂_map related
    intro choice member migration read
    obtain ⟨_, _, _, same⟩ := version member read
    exact same
  have distinct : (out.map Migration.version).Nodup := by
    rw [versions]
    exact ((walk.same chosen).map Prod.fst).nodup_iff.mpr picks.distinct
  refine { sorted := ?_, each := ?_, all := ?_ }
  · have apart := pairwise_map.mp ((perm.map Migration.version).nodup_iff.mpr distinct)
    have level := pairwise_map.mp (sorted_keys Migration.version out)
    exact (level.and apart).imp fun both => lt_of_le_of_ne both.1 both.2
  · intro migration member
    obtain ⟨choice, chosenToo, read⟩ := forall₂_mem_right related (perm.mem_iff.mp member)
    obtain ⟨entry, picked, built, same⟩ := version chosenToo read
    exact ⟨entry, same ▸ picked, built⟩
  · intro seq entry picked
    have found := picks.picked seq
    rw [picked] at found
    have member := (walk.same chosen).mem_iff.mpr (Association.mem_of_lookup found)
    obtain ⟨migration, inside, read⟩ := forall₂_mem_left related member
    obtain ⟨_, _, _, same⟩ := version member read
    exact ⟨migration, perm.mem_iff.mpr inside, same⟩

theorem checks_iff (dir : Text) (named : ∀ file ∈ files, isSql file = true →
      (migrationFile file).isSome = true) (same : entries.Perm (entriesOf files)) :
    (∃ bySeq, entries.foldlM (describe dir) [] = .ok bySeq ∧
      checkGaps dir 1 (bySeq.mergeSort fun first second => first.1 ≤ second.1) = .ok ()) ↔
      Numbered files := by
  have counted : ((entries.map MigrationFile.seq).dedup).length = (numbers files).length :=
    (same.map MigrationFile.seq).dedup.length_eq
  have present (seq : Int) : (∃ entry ∈ entries, entry.seq = seq) ↔
      ∃ entry ∈ entriesOf files, entry.seq = seq :=
    exists_congr fun entry => and_congr_left' same.mem_iff
  have all := describe_all dir describes_nil entries
  rw [nil_append] at all
  constructor
  · rintro ⟨bySeq, accepted, gaps⟩
    have describes := all.1 bySeq accepted
    refine { named := named, described := ?_, consecutive := ?_ }
    · intro first member second memberToo
      exact describes.described first (same.mem_iff.mpr member) second
        (same.mem_iff.mpr memberToo)
    · intro seq
      rw [← present, ← counted]
      exact (gaps_ok describes).mp gaps seq
  · intro numbered
    obtain ⟨bySeq, accepted⟩ := all.2 fun first member second memberToo =>
      numbered.described first (same.mem_iff.mp member) second (same.mem_iff.mp memberToo)
    refine ⟨bySeq, accepted, (gaps_ok (all.1 bySeq accepted)).mpr fun seq => ?_⟩
    rw [present, counted]
    exact numbered.consecutive seq

theorem numbered_empty (named : ∀ file ∈ files, isSql file = true →
      (migrationFile file).isSome = true) (empty : entriesOf files = []) : Numbered files := by
  have same : List.Perm [] (entriesOf files) := by rw [empty]
  refine (checks_iff [] named same).mp ⟨[], rfl, ?_⟩
  rw [mergeSort_nil]
  rfl

theorem picks_sorted (entries : List MigrationFile) (dialect : Dialect) :
    Picks dialect entries
      ((entries.mergeSort fun first second => decide (first.seq ≤ second.seq)).foldl
        (choose dialect) []) := by
  have start : Picks dialect [] [] := ⟨nodup_nil, fun _ => rfl⟩
  have picks := picks_all start
    (entries.mergeSort fun first second => decide (first.seq ≤ second.seq))
  rw [nil_append] at picks
  exact ⟨picks.distinct, fun seq => (picks.picked seq).trans (by rw [pick_sorted])⟩

theorem load_total (walk : Walk) (dir : Text) (dialect : Dialect)
    (documented : Unapplies unapplied) (numbered : Numbered files)
    (readable : ∀ seq entry, pick (entriesOf files) dialect seq = some entry →
      ∃ raw, entry.file.content = .ok raw) :
    ∃ ms, loadFiles unapplied walk dir files dialect = .ok ms := by
  have perm := mergeSort_perm (entriesOf files) fun first second =>
    decide (first.seq ≤ second.seq)
  have picks := picks_sorted (entriesOf files) dialect
  have each : ∀ choice ∈ walk.order (((entriesOf files).mergeSort fun first second =>
      decide (first.seq ≤ second.seq)).foldl (choose dialect) []),
      ∃ migration, readMigration unapplied dir choice = .ok migration := by
    intro choice member
    have found := Association.lookup_of_mem picks.distinct ((walk.same _).mem_iff.mp member)
    rw [picks.picked] at found
    obtain ⟨entry, picked, same⟩ := Option.map_eq_some_iff.mp found
    obtain ⟨listed, number, _⟩ := pick_mem picked
    obtain ⟨raw, text⟩ := readable _ _ picked
    obtain ⟨checksum, other, read, built⟩ := built_fields documented numbered listed text
    obtain ⟨seq, desc, file⟩ := choice
    cases same
    rw [number] at built
    exact ⟨_, read_ok.mpr ⟨other, read, built⟩⟩
  obtain ⟨out, read⟩ := mapM_total each
  obtain ⟨bySeq, described, gaps⟩ := (checks_iff dir numbered.named perm).mpr numbered
  have scanned : scan dir files = .ok (entriesOf files) := scan_ok.mpr ⟨numbered.named, rfl⟩
  unfold loadFiles
  by_cases nothing : (entriesOf files).isEmpty = true
  · exact ⟨[], bind_ok.mpr ⟨_, scanned, by rw [if_pos nothing]; rfl⟩⟩
  · refine ⟨out.mergeSort fun first second => first.version ≤ second.version,
      bind_ok.mpr ⟨_, scanned, ?_⟩⟩
    rw [if_neg nothing]
    exact bind_ok.mpr ⟨bySeq, described, bind_ok.mpr ⟨(), gaps, bind_ok.mpr ⟨out, read, rfl⟩⟩⟩

/-- Loading succeeds exactly behind the checks, with the migrations of the chosen files. -/
theorem load_iff (documented : Unapplies unapplied) :
    loadFiles unapplied walk dir files dialect = .ok ms ↔
      Numbered files ∧ Loaded unapplied (entriesOf files) dialect ms := by
  have loads {ms : List Migration} (accepted :
      loadFiles unapplied walk dir files dialect = .ok ms) :
      Numbered files ∧ Loaded unapplied (entriesOf files) dialect ms := by
    unfold loadFiles at accepted
    obtain ⟨entries, scanned, accepted⟩ := bind_ok.mp accepted
    obtain ⟨named, rfl⟩ := scan_ok.mp scanned
    split at accepted
    · rename_i nothing
      have empty := List.isEmpty_iff.mp nothing
      cases accepted
      refine ⟨numbered_empty named empty, List.Pairwise.nil, nofun, ?_⟩
      rw [empty]
      nofun
    · obtain ⟨bySeq, described, accepted⟩ := bind_ok.mp accepted
      obtain ⟨_, gaps, accepted⟩ := bind_ok.mp accepted
      obtain ⟨out, read, same⟩ := bind_ok.mp accepted
      cases same
      have numbered := (checks_iff dir named (mergeSort_perm _ _)).mp
        ⟨bySeq, described, gaps⟩
      exact ⟨numbered,
        loaded_of_read documented numbered (picks_sorted (entriesOf files) dialect) read⟩
  refine ⟨loads, fun ⟨numbered, loaded⟩ => ?_⟩
  have readable (seq : Int) (entry : MigrationFile)
      (picked : pick (entriesOf files) dialect seq = some entry) :
      ∃ raw, entry.file.content = .ok raw := by
    obtain ⟨migration, inside, version⟩ := loaded.all seq entry picked
    obtain ⟨other, pickedToo, raw, text, _⟩ := loaded.each migration inside
    rw [version, picked] at pickedToo
    cases pickedToo
    exact ⟨raw, text⟩
  obtain ⟨more, accepted⟩ := load_total walk dir dialect documented numbered readable
  rw [loaded_unique loaded (loads accepted).2 fun _ => rfl]
  exact accepted

end Load

/-- No two files have the same number and are for the same dialects. -/
def Distinct (files : List File) : Prop :=
  ∀ first ∈ entriesOf files, ∀ second ∈ entriesOf files,
    first.seq = second.seq → first.dialect = second.dialect → first = second

/-- Every number has a file for the dialect or for all of them. -/
def Complete (files : List File) (dialect : Dialect) : Prop :=
  ∀ entry ∈ entriesOf files, ∃ other ∈ entriesOf files, other.seq = entry.seq ∧
    (other.dialect = some dialect ∨ other.dialect = none)

/-- The file is the one of the dialect, or one for all where the dialect has none. -/
def Source (files : List File) (dialect : Dialect) (entry : MigrationFile) : Prop :=
  entry ∈ entriesOf files ∧ (entry.dialect = some dialect ∨ entry.dialect = none ∧
    ∀ other ∈ entriesOf files, other.seq = entry.seq → other.dialect ≠ some dialect)

/-- Some number has nothing but sources that cannot be read. -/
def Blocked (files : List File) (dialect : Dialect) : Prop :=
  ∃ entry, Source files dialect entry ∧ ∀ other, Source files dialect other →
    other.seq = entry.seq → ∃ e, other.file.content = .error e

/-- Whatever the dialect, the order in the directory and the order in a hash map. -/
structure WellFormed (unapplied : Text → Text → Except Text Migration) (dir : Text)
    (files : List File) : Prop where
  versions : ∀ walk dialect ms, loadMigrations unapplied walk dir (.listed files) dialect = .ok ms →
    ms.map Migration.version = upTo (numbers files).length
  sources : ∀ walk dialect ms, loadMigrations unapplied walk dir (.listed files) dialect = .ok ms →
    ∀ migration ∈ ms, ∃ entry, Source files dialect entry ∧ entry.seq = migration.version ∧
      entry.desc = migration.name ∧
      ∃ raw, entry.file.content = .ok raw ∧ migration.sql = normalizeSql raw
  names : ∀ walk first second ms more,
    loadMigrations unapplied walk dir (.listed files) first = .ok ms →
    loadMigrations unapplied walk dir (.listed files) second = .ok more →
      ms.map (fun migration => (migration.version, migration.name)) =
        more.map fun migration => (migration.version, migration.name)
  apart : ∀ walk dialect ms, loadMigrations unapplied walk dir (.listed files) dialect = .ok ms →
    Distinct files
  order : ∀ walk other dialect listing, files.Perm listing → ∀ ms,
    loadMigrations unapplied walk dir (.listed files) dialect = .ok ms ↔
      loadMigrations unapplied other dir (.listed listing) dialect = .ok ms

section Sets

variable {unapplied : Text → Text → Except Text Migration} {ms : List Migration}

theorem entries_perm (same : files.Perm listing) : (entriesOf files).Perm (entriesOf listing) :=
  (same.filter _).filterMap _

theorem numbered_perm (same : files.Perm listing) (numbered : Numbered files) :
    Numbered listing where
  named := fun file member => numbered.named file (same.mem_iff.mpr member)
  described := fun first member second memberToo => numbered.described
    first ((entries_perm same).mem_iff.mpr member)
    second ((entries_perm same).mem_iff.mpr memberToo)
  consecutive := fun seq => by
    have counted : (numbers files).length = (numbers listing).length :=
      ((entries_perm same).map MigrationFile.seq).dedup.length_eq
    rw [← counted, ← numbered.consecutive]
    exact exists_congr fun entry => and_congr_left' (entries_perm same).mem_iff.symm

theorem source_perm (same : files.Perm listing) (entry : MigrationFile) :
    Source files dialect entry ↔ Source listing dialect entry := by
  unfold Source
  simp only [(entries_perm same).mem_iff]

variable {entry : MigrationFile}

theorem pick_source {seq : Int} (picked : pick (entriesOf files) dialect seq = some entry) :
    Source files dialect entry ∧ entry.seq = seq := by
  obtain ⟨member, number, _⟩ := pick_mem picked
  refine ⟨⟨member, ?_⟩, number⟩
  rcases Option.or_eq_some_iff.mp picked with last | ⟨nothing, first⟩
  · have kept := (mem_filter.mp (mem_of_getLast? last)).2
    exact .inl (of_decide_eq_true kept).2
  · have kept := (mem_filter.mp (mem_of_mem_head? first)).2
    refine .inr ⟨(of_decide_eq_true kept).2, fun other inside same override => ?_⟩
    have empty := getLast?_eq_none_iff.mp nothing
    have found : other ∈ (entriesOf files).filter fun entry =>
        entry.seq = seq ∧ entry.dialect = some dialect :=
      mem_filter.mpr ⟨inside, decide_eq_true ⟨same.trans number, override⟩⟩
    rw [empty] at found
    cases found

theorem pick_of_source (source : Source files dialect entry) :
    ∃ picked, pick (entriesOf files) dialect entry.seq = some picked := by
  by_contra unpicked
  have nothing : pick (entriesOf files) dialect entry.seq = none := by
    cases found : pick (entriesOf files) dialect entry.seq with
    | none => rfl
    | some picked => exact absurd ⟨picked, found⟩ unpicked
  obtain ⟨overrides, generics⟩ := Option.or_eq_none_iff.mp nothing
  obtain ⟨member, override | ⟨generic, _⟩⟩ := source
  · have found : entry ∈ (entriesOf files).filter fun other =>
        other.seq = entry.seq ∧ other.dialect = some dialect :=
      mem_filter.mpr ⟨member, decide_eq_true ⟨rfl, override⟩⟩
    rw [getLast?_eq_none_iff.mp overrides] at found
    cases found
  · have found : entry ∈ (entriesOf files).filter fun other =>
        other.seq = entry.seq ∧ other.dialect = none :=
      mem_filter.mpr ⟨member, decide_eq_true ⟨rfl, generic⟩⟩
    rw [head?_eq_none_iff.mp generics] at found
    cases found

theorem source_unique (distinct : Distinct files) {first second : MigrationFile}
    (one : Source files dialect first) (two : Source files dialect second)
    (same : first.seq = second.seq) : first = second := by
  apply distinct first one.1 second two.1 same
  rcases one.2 with override | ⟨generic, alone⟩ <;>
    rcases two.2 with overrideToo | ⟨genericToo, aloneToo⟩
  · rw [override, overrideToo]
  · exact absurd override (aloneToo first one.1 same)
  · exact absurd overrideToo (alone second two.1 same.symm)
  · rw [generic, genericToo]

theorem pick_perm (same : files.Perm listing) (distinct : Distinct files) (seq : Int) :
    pick (entriesOf files) dialect seq = pick (entriesOf listing) dialect seq := by
  cases found : pick (entriesOf files) dialect seq with
  | some entry =>
    obtain ⟨source, number⟩ := pick_source found
    obtain ⟨other, foundToo⟩ := pick_of_source ((source_perm same entry).mp source)
    obtain ⟨sourceToo, numberToo⟩ := pick_source foundToo
    rw [number] at foundToo
    rw [foundToo, source_unique distinct source ((source_perm same other).mpr sourceToo)
      numberToo.symm]
  | none =>
    cases foundToo : pick (entriesOf listing) dialect seq with
    | none => rfl
    | some other =>
      obtain ⟨source, number⟩ := pick_source foundToo
      obtain ⟨entry, picked⟩ := pick_of_source ((source_perm same other).mpr source)
      rw [number, found] at picked
      cases picked

theorem loaded_unblocked (same : files.Perm listing)
    (loaded : Loaded unapplied (entriesOf listing) dialect ms) : ¬Blocked files dialect := by
  rintro ⟨entry, source, blocked⟩
  obtain ⟨picked, found⟩ := pick_of_source ((source_perm same entry).mp source)
  obtain ⟨migration, inside, version⟩ := loaded.all _ _ found
  obtain ⟨other, foundToo, raw, read, _⟩ := loaded.each migration inside
  rw [version, found] at foundToo
  cases foundToo
  obtain ⟨sourceToo, number⟩ := pick_source found
  obtain ⟨e, unread⟩ := blocked picked ((source_perm same picked).mpr sourceToo) number
  rw [unread] at read
  cases read

theorem complete_source (complete : Complete files dialect) (member : entry ∈ entriesOf files) :
    ∃ other, Source files dialect other ∧ other.seq = entry.seq := by
  obtain ⟨other, inside, number, override | generic⟩ := complete entry member
  · exact ⟨other, ⟨inside, .inl override⟩, number⟩
  · by_cases overridden : ∃ special ∈ entriesOf files, special.seq = other.seq ∧
        special.dialect = some dialect
    · obtain ⟨special, insideToo, same, override⟩ := overridden
      exact ⟨special, ⟨insideToo, .inl override⟩, same.trans number⟩
    · refine ⟨other, ⟨inside, .inr ⟨generic, fun special insideToo same override => ?_⟩⟩, number⟩
      exact overridden ⟨special, insideToo, same, override⟩

theorem loaded_versions (numbered : Numbered files) (complete : Complete files dialect)
    (loaded : Loaded unapplied (entriesOf files) dialect ms) :
    ms.map Migration.version = upTo (numbers files).length := by
  have sorted : (ms.map Migration.version).Pairwise (· < ·) := pairwise_map.mpr loaded.sorted
  have members (seq : Int) :
      seq ∈ ms.map Migration.version ↔ seq ∈ upTo (numbers files).length := by
    rw [mem_upTo, ← numbered.consecutive, mem_map]
    constructor
    · rintro ⟨migration, inside, rfl⟩
      obtain ⟨entry, found, _⟩ := loaded.each migration inside
      obtain ⟨member, number, _⟩ := pick_mem found
      exact ⟨entry, member, number⟩
    · rintro ⟨entry, member, rfl⟩
      obtain ⟨source, isSource, number⟩ := complete_source complete member
      obtain ⟨picked, found⟩ := pick_of_source isSource
      obtain ⟨migration, inside, version⟩ := loaded.all _ _ found
      exact ⟨migration, inside, version.trans number⟩
  have perm := (perm_ext_iff_of_nodup (sorted.imp fun before => ne_of_lt before)
    (nodup_upTo _)).mpr members
  exact perm.eq_of_pairwise' (sorted.imp fun before => le_of_lt before)
    ((pairwise_upTo _).imp fun before => le_of_lt before)

theorem built_of_pick (documented : Unapplies unapplied) (numbered : Numbered files)
    (loaded : Loaded unapplied (entriesOf files) dialect ms) {migration : Migration}
    (inside : migration ∈ ms) :
    ∃ entry, Source files dialect entry ∧ entry.seq = migration.version ∧
      entry.desc = migration.name ∧
      ∃ raw, entry.file.content = .ok raw ∧ migration.sql = normalizeSql raw := by
  obtain ⟨entry, found, built⟩ := loaded.each migration inside
  obtain ⟨source, number⟩ := pick_source found
  have readable := built
  obtain ⟨raw, read, _⟩ := readable
  obtain ⟨checksum, builtToo⟩ := built_fields documented numbered source.1 read
  have same := built_unique built builtToo
  exact ⟨entry, source, number, by rw [same], raw, read, by rw [same]⟩

def descOf (files : List File) (seq : Int) : Text :=
  (((entriesOf files).find? fun entry => entry.seq = seq).map MigrationFile.desc).getD []

theorem desc_of (numbered : Numbered files) (member : entry ∈ entriesOf files) :
    descOf files entry.seq = entry.desc := by
  unfold descOf
  cases found : (entriesOf files).find? fun other => decide (other.seq = entry.seq) with
  | none => exact absurd (decide_eq_true rfl) (find?_eq_none.mp found entry member)
  | some first =>
    have same : first.seq = entry.seq := by simpa using find?_some found
    exact numbered.described first (mem_of_find?_eq_some found) entry member same

theorem loaded_names (documented : Unapplies unapplied) (numbered : Numbered files)
    (complete : Complete files dialect)
    (loaded : Loaded unapplied (entriesOf files) dialect ms) :
    ms.map (fun migration => (migration.version, migration.name)) =
      (upTo (numbers files).length).map fun seq => (seq, descOf files seq) := by
  rw [← loaded_versions numbered complete loaded, map_map]
  apply map_congr_left
  intro migration inside
  obtain ⟨entry, source, number, desc, _⟩ := built_of_pick documented numbered loaded inside
  rw [Function.comp_apply, ← number, ← desc, desc_of numbered source.1]

def rank (dialect : Dialect) (file : File) : Int :=
  match file.content, migrationFile file with
  | .ok _, some entry =>
    if entry.dialect = none then 0 else if entry.dialect = some dialect then 2 else 1
  | _, _ => 1

def ranked (dialect : Dialect) (files : List File) : List File :=
  files.mergeSort fun first second => decide (rank dialect first ≤ rank dialect second)

theorem entry_file (member : entry ∈ entriesOf files) :
    migrationFile entry.file = some entry := by
  obtain ⟨file, _, parsed⟩ := mem_filterMap.mp member
  obtain ⟨parts, found, rfl⟩ := Option.map_eq_some_iff.mp parsed
  exact parsed

theorem ranked_pairwise (dialect : Dialect) (files : List File) :
    (entriesOf (ranked dialect files)).Pairwise fun first second =>
      rank dialect first.file ≤ rank dialect second.file := by
  have sorted := pairwise_map.mp (sorted_keys (rank dialect) files)
  apply List.Pairwise.filterMap migrationFile _ (sorted.filter _)
  intro first second before entry parsed other parsedToo
  obtain ⟨_, _, rfl⟩ := Option.map_eq_some_iff.mp parsed
  obtain ⟨_, _, rfl⟩ := Option.map_eq_some_iff.mp parsedToo
  exact before

theorem rank_unread (dialect : Dialect) {file : File} {e : Text}
    (unread : file.content = .error e) : rank dialect file = 1 := by
  rw [rank, unread]

theorem rank_read (dialect : Dialect) (member : entry ∈ entriesOf files) {raw : Text}
    (read : entry.file.content = .ok raw) :
    rank dialect entry.file =
      if entry.dialect = none then 0 else if entry.dialect = some dialect then 2 else 1 := by
  rw [rank, read, entry_file member]

/-- In that order every pick can be read unless the dialect is blocked. -/
theorem ranked_readable (unblocked : ¬Blocked files dialect) {seq : Int}
    (picked : pick (entriesOf (ranked dialect files)) dialect seq = some entry) :
    ∃ raw, entry.file.content = .ok raw := by
  have perm : (ranked dialect files).Perm files := mergeSort_perm _ _
  obtain ⟨source, number⟩ := pick_source picked
  cases unread : entry.file.content with
  | ok raw => exact ⟨raw, rfl⟩
  | error e =>
    exfalso
    apply unblocked
    refine ⟨entry, (source_perm perm entry).mp source, fun other sourceToo same => ?_⟩
    replace sourceToo := (source_perm perm other).mpr sourceToo
    cases read : other.file.content with
    | error e => exact ⟨e, rfl⟩
    | ok raw =>
      exfalso
      have plain := rank_unread dialect unread
      have high := rank_read dialect sourceToo.1 read
      have level := ranked_pairwise dialect files
      rcases Option.or_eq_some_iff.mp picked with last | ⟨nothing, first⟩
      · obtain ⟨before, whole⟩ := getLast?_eq_some_iff.mp last
        have kept := of_decide_eq_true (mem_filter.mp (mem_of_getLast? last)).2
        have override : other.dialect = some dialect := by
          rcases sourceToo.2 with override | ⟨_, alone⟩
          · exact override
          · exact absurd kept.2 (alone entry source.1 same.symm)
        have inside : other ∈ (entriesOf (ranked dialect files)).filter fun entry =>
            entry.seq = seq ∧ entry.dialect = some dialect :=
          mem_filter.mpr ⟨sourceToo.1, decide_eq_true ⟨same.trans number, override⟩⟩
        have ordered := level.filter fun entry : MigrationFile =>
          decide (entry.seq = seq ∧ entry.dialect = some dialect)
        rw [whole] at inside ordered
        rw [override, if_neg nofun, if_pos rfl] at high
        rcases mem_append.mp inside with earlier | final
        · have below := (pairwise_append.mp ordered).2.2 other earlier entry
            (mem_singleton_self _)
          omega
        · rw [mem_singleton.mp final, unread] at read
          cases read
      · obtain ⟨after, whole⟩ := head?_eq_some_iff.mp first
        have generic : other.dialect = none := by
          rcases sourceToo.2 with override | ⟨generic, _⟩
          · have inside : other ∈ (entriesOf (ranked dialect files)).filter fun entry =>
                entry.seq = seq ∧ entry.dialect = some dialect :=
              mem_filter.mpr ⟨sourceToo.1, decide_eq_true ⟨same.trans number, override⟩⟩
            rw [getLast?_eq_none_iff.mp nothing] at inside
            cases inside
          · exact generic
        have inside : other ∈ (entriesOf (ranked dialect files)).filter fun entry =>
            entry.seq = seq ∧ entry.dialect = none :=
          mem_filter.mpr ⟨sourceToo.1, decide_eq_true ⟨same.trans number, generic⟩⟩
        have ordered := level.filter fun entry : MigrationFile =>
          decide (entry.seq = seq ∧ entry.dialect = none)
        rw [whole] at inside ordered
        rw [generic, if_pos rfl] at high
        rcases mem_cons.mp inside with final | later
        · rw [final, unread] at read
          cases read
        · have above := rel_of_pairwise_cons ordered later
          omega

def plainWalk : Walk where
  order chosen := chosen
  same chosen := .refl chosen

/-- A directory is well formed exactly if, where its numbers are in order, every dialect has
one file for each number, or a number of which nothing can be read. -/
theorem well_formed_iff (documented : Unapplies unapplied) (dir : Text) (files : List File) :
    WellFormed unapplied dir files ↔
      (Numbered files → ∀ dialect,
        Blocked files dialect ∨ Complete files dialect ∧ Distinct files) := by
  constructor
  · intro formed numbered dialect
    by_cases blocked : Blocked files dialect
    · exact .inl blocked
    · right
      have perm : files.Perm (ranked dialect files) := (mergeSort_perm _ _).symm
      obtain ⟨ms, loaded⟩ := load_total plainWalk dir dialect
        documented (numbered_perm perm numbered) fun seq entry picked =>
          ranked_readable blocked picked
      have accepted := (formed.order plainWalk plainWalk dialect _ perm ms).mpr loaded
      have inside := (load_iff documented).mp accepted
      refine ⟨fun entry member => ?_, formed.apart _ _ _ accepted⟩
      have listed : entry.seq ∈ ms.map Migration.version := by
        rw [formed.versions _ _ _ accepted, mem_upTo]
        exact (numbered.consecutive entry.seq).mp ⟨entry, member, rfl⟩
      obtain ⟨migration, present, version⟩ := mem_map.mp listed
      obtain ⟨picked, found, _⟩ := inside.2.each migration present
      obtain ⟨memberToo, number, tag⟩ := pick_mem found
      exact ⟨picked, memberToo, number.trans version, tag⟩
  · intro condition
    have proper {walk : Walk} {dialect : Dialect} {ms : List Migration} {listing : List File}
        (perm : files.Perm listing)
        (accepted : loadFiles unapplied walk dir listing dialect = .ok ms) :
        Numbered files ∧ Loaded unapplied (entriesOf listing) dialect ms ∧
          Complete files dialect ∧ Distinct files := by
      obtain ⟨numberedToo, loaded⟩ := (load_iff documented).mp accepted
      have numbered := numbered_perm perm.symm numberedToo
      have either := (condition numbered dialect).resolve_left (loaded_unblocked perm loaded)
      exact ⟨numbered, loaded, either⟩
    refine { versions := ?_, sources := ?_, names := ?_, apart := ?_, order := ?_ }
    · intro walk dialect ms accepted
      obtain ⟨numbered, loaded, complete, _⟩ := proper (.refl _) accepted
      exact loaded_versions numbered complete loaded
    · intro walk dialect ms accepted migration inside
      obtain ⟨numbered, loaded, _⟩ := proper (.refl _) accepted
      exact built_of_pick documented numbered loaded inside
    · intro walk first second ms more accepted acceptedToo
      obtain ⟨numbered, loaded, complete, _⟩ := proper (.refl _) accepted
      obtain ⟨_, loadedToo, completeToo, _⟩ := proper (.refl _) acceptedToo
      rw [loaded_names documented numbered complete loaded,
        loaded_names documented numbered completeToo loadedToo]
    · intro walk dialect ms accepted
      exact (proper (.refl _) accepted).2.2.2
    · intro walk other dialect listing perm ms
      have transfer (source target : List File) (one two : Walk) (first : files.Perm source)
          (second : files.Perm target)
          (accepted : loadFiles unapplied one dir source dialect = .ok ms) :
          loadFiles unapplied two dir target dialect = .ok ms := by
        obtain ⟨numbered, loaded, _, distinct⟩ := proper first accepted
        have same (seq : Int) : pick (entriesOf target) dialect seq =
            pick (entriesOf source) dialect seq := by
          rw [← pick_perm second distinct, ← pick_perm first distinct]
        refine (load_iff documented).mpr ⟨numbered_perm second numbered, loaded.sorted, ?_, ?_⟩
        · intro migration inside
          rw [same]
          exact loaded.each migration inside
        · intro seq entry picked
          rw [same] at picked
          exact loaded.all seq entry picked
      exact ⟨transfer files listing walk other (.refl _) perm,
        transfer listing files other walk perm (.refl _)⟩

end Sets

theorem split_underscores_append {front : Text} (plain : '_' ∉ front) (rest : Text) :
    splitUnderscores (front ++ '_' :: '_' :: rest) = some (front, rest) := by
  induction front with
  | nil => rfl
  | cons char front ih =>
    rw [mem_cons, not_or] at plain
    rw [cons_append, splitUnderscores, ih plain.2, Option.map_some]
    intro _ same
    exact absurd same.symm plain.1

def plainUnapplied (label sql : Text) : Except Text Migration :=
  match (splitUnderscores (label.drop 1)).bind fun parts =>
      (Decimal.parseInt64 parts.1).map fun seq => (seq, parts.2) with
  | some (version, name) => .ok { version, name, checksum := 0, sql }
  | none => .error "invalid migration name".toList

theorem plain_unapplies : Unapplies plainUnapplied := by
  intro seq desc sql positive small _ _
  have digits : '_' ∉ decimal seq := by
    obtain ⟨number, rfl⟩ := Int.eq_ofNat_of_zero_le (le_trans Int.one_nonneg positive)
    change '_' ∉ (Nat.repr number).toList
    rw [Nat.toList_repr]
    exact Nat.underscore_not_in_toDigits
  have label : (labelOf seq desc).drop 1 = decimal seq ++ '_' :: '_' :: desc := by
    rw [labelOf, append_assoc]
    rfl
  have read : Decimal.parseInt64 (decimal seq) = some seq :=
    Decimal.parse_int64_toString (by omega) small
  refine ⟨0, ?_⟩
  rw [plainUnapplied, label, split_underscores_append digits, Option.bind_some, read,
    Option.map_some]

def sqlFile (name : String) : File where
  name := name.toList
  content := .ok "x;".toList

def sqlEntry (seq : Int) (desc : String) (dialect : Option Dialect) (name : String) :
    MigrationFile where
  seq := seq
  desc := desc.toList
  dialect := dialect
  file := sqlFile name

/-- One migration, with another text for one dialect. -/
theorem well_formed_override :
    WellFormed plainUnapplied "migrations".toList
      [sqlFile "0001__init.sql", sqlFile "0001__init.pg.sql"] := by
  have entries : entriesOf [sqlFile "0001__init.sql", sqlFile "0001__init.pg.sql"] =
      [sqlEntry 1 "init" none "0001__init.sql",
        sqlEntry 1 "init" (some .postgres) "0001__init.pg.sql"] := by
    decide +kernel
  apply (well_formed_iff plain_unapplies _ _).mpr
  intro _ dialect
  refine .inr ⟨?_, ?_⟩
  · rw [Complete, entries]
    intro entry member
    refine ⟨_, mem_cons_self, ?_, .inr rfl⟩
    rcases mem_pair.mp member with rfl | rfl <;> rfl
  · rw [Distinct, entries]
    decide +kernel

/-- The second migration is there for one dialect only: another one loads the first and stops. -/
theorem dialect_only_drops_version :
    (loadMigrations plainUnapplied plainWalk "migrations".toList
        (.listed [sqlFile "0001__a.sql", sqlFile "0002__b.pg.sql"]) .sqlite).map
          (fun ms => ms.map Migration.version) = .ok [1] ∧
      (numbers [sqlFile "0001__a.sql", sqlFile "0002__b.pg.sql"]).length = 2 ∧
      ¬WellFormed plainUnapplied "migrations".toList
        [sqlFile "0001__a.sql", sqlFile "0002__b.pg.sql"] := by
  have entries : entriesOf [sqlFile "0001__a.sql", sqlFile "0002__b.pg.sql"] =
      [sqlEntry 1 "a" none "0001__a.sql", sqlEntry 2 "b" (some .postgres) "0002__b.pg.sql"] := by
    decide +kernel
  have counted : (numbers [sqlFile "0001__a.sql", sqlFile "0002__b.pg.sql"]).length = 2 := by
    decide +kernel
  have loaded : loadMigrations plainUnapplied plainWalk "migrations".toList
      (.listed [sqlFile "0001__a.sql", sqlFile "0002__b.pg.sql"]) .sqlite =
        .ok [{ version := 1, name := "a".toList, checksum := 0, sql := "x;".toList }] := by
    apply (load_iff plain_unapplies).mpr
    refine ⟨{ named := by decide +kernel, described := ?_, consecutive := ?_ },
      { sorted := pairwise_singleton _ _, each := ?_, all := ?_ }⟩
    · rw [entries]
      decide +kernel
    · intro seq
      rw [entries, counted]
      simp only [mem_pair, exists_eq_or_imp, exists_eq_left, sqlEntry]
      omega
    · intro migration inside
      rw [mem_singleton.mp inside, entries]
      exact ⟨sqlEntry 1 "a" none "0001__a.sql", by decide +kernel, "x;".toList, rfl,
        by decide +kernel⟩
    · intro seq entry picked
      rw [entries] at picked
      obtain ⟨member, number, tag⟩ := pick_mem picked
      refine ⟨_, mem_singleton_self _, ?_⟩
      rcases mem_pair.mp member with rfl | rfl
      · exact number
      · rcases tag with tag | tag <;> cases tag
  refine ⟨by rw [loaded]; rfl, counted, fun formed => ?_⟩
  have versions := formed.versions _ _ _ loaded
  rw [counted] at versions
  exact absurd versions (by decide)

end OnlyJs.Oj.Migrate
