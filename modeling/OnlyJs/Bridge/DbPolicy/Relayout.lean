import OnlyJs.Bridge.DbPolicy.Layout

/-!
# Texts that differ in layout

Two texts with the same tokens are classified alike when they agree about layout where
the classification looks: at commas and dots next to a word that it knows, in the table
list of a guarded update or delete, and in a guarded predicate. A semicolon at the end
adds a statement without words.
-/

namespace OnlyJs.Bridge.DbPolicy

open Lib.Lexing Lib.SqlLexing

section Statement

def guarded (words : List String) : Bool :=
  (words.head?.any fun first => ["WITH", "UPDATE", "DELETE"].contains first) &&
    words.contains "WHERE"

variable (word first : String) (rest : List String)

theorem classify_unwatched (unwatched : first ∉ watched) :
    classifyStmt (first :: rest) = (.unknown, false) := by
  have apart : ∀ word ∈ watched, first ≠ word := fun word member same => unwatched (same ▸ member)
  have unlisted : ∀ words : List String, (∀ word ∈ words, word ∈ watched) →
      words.contains first = false := by
    intro words known
    rw [List.contains_eq_mem, decide_eq_false_iff_not]
    exact fun member => unwatched (known first member)
  unfold classifyStmt
  simp (disch := decide) only [apart, unlisted, if_false, Bool.false_eq_true]

theorem withWordRisk_watched (risk : Risk) (known : withWordRisk word = some risk) :
    word ∈ watched := by
  have writes : ∀ word ∈ ["DELETE", "UPDATE", "INSERT", "REPLACE", "MERGE"], word ∈ watched := by
    decide
  have changes : ∀ word ∈ ["DROP", "ALTER", "TRUNCATE", "CREATE"], word ∈ watched := by decide
  unfold withWordRisk at known
  split at known
  · rename_i found
    exact writes word (List.contains_iff_mem.mp found)
  split at known
  · rename_i found
    exact changes word (List.contains_iff_mem.mp found)
  split at known
  · rename_i found
    rw [found]
    decide
  · cases known

theorem withRisk_mono (one other : List String)
    (sub : ∀ word ∈ watched, word ∈ one → word ∈ other) :
    severity (withRisk one) ≤ severity (withRisk other) := by
  rcases foldl_worse_mem (one.filterMap withWordRisk) .readOnly with same | member
  · rw [withRisk, same]
    exact Nat.zero_le _
  · obtain ⟨word, read, known⟩ := List.mem_filterMap.mp member
    have also := sub word (withWordRisk_watched word _ known) read
    exact (severity_le_foldl_worse (other.filterMap withWordRisk) .readOnly).2 _
      (List.mem_filterMap.mpr ⟨word, also, known⟩)

/-- Two word sequences that hold the same of the words that a classification looks for,
and begin alike. -/
structure SameLook (one other : List String) : Prop where
  has : ∀ word ∈ watched, one.contains word = other.contains word
  head : one.head? = other.head? ∨
    ∃ a b, one.head? = some a ∧ other.head? = some b ∧ a ∉ watched ∧ b ∉ watched

theorem withRisk_same (one other : List String) (look : SameLook one other) :
    withRisk one = withRisk other := by
  have members : ∀ word ∈ watched, (word ∈ one ↔ word ∈ other) := by
    intro word member
    rw [← List.contains_iff_mem, ← List.contains_iff_mem, look.has word member]
  apply severity_injective
  apply Nat.le_antisymm
  · exact withRisk_mono one other fun word member => (members word member).mp
  · exact withRisk_mono other one fun word member => (members word member).mpr

theorem eq_cons_of_head? {α : Type} (all : List α) (a : α) (head : all.head? = some a) :
    ∃ rest, all = a :: rest := by
  cases all with
  | nil => cases head
  | cons b rest =>
    cases head
    exact ⟨rest, rfl⟩

theorem classify_with :
    classifyStmt ("WITH" :: rest) =
      if severity (withRisk ("WITH" :: rest)) = 0 then (.unknown, false)
      else (withRisk ("WITH" :: rest),
        (withRisk ("WITH" :: rest) = .write || withRisk ("WITH" :: rest) = .ddl) &&
          (!("WITH" :: rest).contains "WHERE" || tautology ("WITH" :: rest))) := rfl

theorem classify_change (changes : first = "UPDATE" ∨ first = "DELETE") :
    classifyStmt (first :: rest) =
      (.write, !(first :: rest).contains "WHERE" || multiTable (first :: rest) ||
        tautology (first :: rest)) := by
  rcases changes with rfl | rfl <;> rfl

/-- The classification depends on the words it looks for and, where it is guarded, on the
table list and the predicate. -/
theorem classify_same (one other : List String) (look : SameLook one other)
    (predicates : guarded one = true → tautology one = tautology other)
    (tables : guarded one = true → one.head? ≠ some "WITH" → multiTable one = multiTable other) :
    classifyStmt one = classifyStmt other := by
  rcases look.head with same | ⟨a, b, first, second, unwatched, unwatched'⟩
  · cases head : one.head? with
    | none =>
      rw [head] at same
      rw [List.head?_eq_none_iff.mp head, List.head?_eq_none_iff.mp same.symm]
    | some first =>
      obtain ⟨rest, rfl⟩ := eq_cons_of_head? one first head
      obtain ⟨rest', rfl⟩ := eq_cons_of_head? other first (by rw [← same, head])
      have has := look.has
      have bounded := has "WHERE" (by decide)
      by_cases opens : first = "WITH"
      · subst opens
        rw [classify_with, classify_with, withRisk_same _ _ look, bounded]
        cases found : ("WITH" :: rest').contains "WHERE" with
        | false => rfl
        | true => rw [predicates (bounded.trans found)]
      by_cases changes : first = "UPDATE" ∨ first = "DELETE"
      · rw [classify_change first rest changes, classify_change first rest' changes, bounded]
        cases found : (first :: rest').contains "WHERE" with
        | false => rfl
        | true =>
          have guard : guarded (first :: rest) = true := by
            rcases changes with rfl | rfl <;> exact bounded.trans found
          have plain : (first :: rest).head? ≠ some "WITH" := fun same =>
            opens (Option.some.inj same)
          rw [predicates guard, tables guard plain]
      · rw [not_or] at changes
        unfold classifyStmt
        have kept : ["UPDATE", "DELETE"].contains first = false := by
          simp [changes]
        have effects : sideEffectFns.any (fun word => (first :: rest).contains word) =
            sideEffectFns.any fun word => (first :: rest').contains word := by
          simp (disch := decide) only [sideEffectFns, List.any_cons, List.any_nil, has]
        dsimp only
        rw [if_neg opens, if_neg opens, kept]
        simp only [effects, has "OUTFILE" (by decide), has "DUMPFILE" (by decide),
          has "FOR" (by decide), has "UPDATE" (by decide), has "LOCK" (by decide),
          has "SHARE" (by decide), has "GLOBAL" (by decide), has "SESSION" (by decide),
          has "SEARCH_PATH" (by decide), Bool.false_eq_true, if_false]
  · obtain ⟨rest, rfl⟩ := eq_cons_of_head? one a first
    obtain ⟨rest', rfl⟩ := eq_cons_of_head? other b second
    rw [classify_unwatched a rest unwatched, classify_unwatched b rest' unwatched']

def decisive (word : String) : Bool :=
  word = "USING" || word = "JOIN" || word.endsWith "," || multiTableEnds.contains word

theorem multiTableScan_append (first second : List String) :
    multiTableScan (first ++ second) =
      if first.any decisive then multiTableScan first else multiTableScan second := by
  induction first with
  | nil => rfl
  | cons word first ih =>
    rw [List.cons_append, multiTableScan, multiTableScan, ih, List.any_cons]
    have split : decisive word = ((word = "USING" || word = "JOIN" || word.endsWith ",") ||
        multiTableEnds.contains word) := rfl
    rw [split]
    generalize (decide (word = "USING") || decide (word = "JOIN") || word.endsWith ",") = joins
    cases joins with
    | true => rfl
    | false =>
      cases multiTableEnds.contains word with
      | true => rfl
      | false => rfl

theorem mem_of_endsWith (ends : word.endsWith "," = true) :
    ',' ∈ word.toList := by
  have ends : word.toSlice.endsWith "," = true := ends
  rw [String.Slice.endsWith_string_iff] at ends
  obtain ⟨front, whole⟩ := ends
  simp only [String.copy_toSlice] at whole
  simp [← whole]

theorem predicate_append (words rest : List String) (found : words.contains "WHERE" = true) :
    predicate (words ++ rest) =
      some (((words.dropWhile fun word => word != "WHERE").tail ++ rest).takeWhile
        fun word => !predicateEnds.contains word) := by
  induction words with
  | nil => cases found
  | cons word words ih =>
    by_cases here : word = "WHERE"
    · subst here
      rfl
    · have passed : ∀ behind : List String, (word :: behind).dropWhile (fun word => word != "WHERE") =
          behind.dropWhile fun word => word != "WHERE" := fun _ =>
        List.dropWhile_cons_of_pos (by simpa using here)
      have later : words.contains "WHERE" = true := by
        rw [List.contains_iff_mem] at found ⊢
        exact (List.mem_cons.mp found).resolve_left fun same => here same.symm
      have behind := ih later
      rw [predicate] at behind ⊢
      rwa [List.cons_append, passed, passed]

theorem predicate_skip (words rest : List String) (absent : words.contains "WHERE" = false) :
    predicate (words ++ rest) = predicate rest := by
  rw [predicate, List.dropWhile_append_of_pos, ← predicate]
  intro word member
  rw [List.contains_eq_mem, decide_eq_false_iff_not] at absent
  simpa using fun same : word = "WHERE" => absent (same ▸ member)

end Statement

section Parts

universe u

-- A statement in parts, with the words of each part in two texts.
variable {ρ : Type u} (one other : ρ → List String) (parts : List ρ)
  (alike : ∀ part ∈ parts, Alike (one part) (other part))

theorem mem_alike (words words' : List String) (alike : Alike words words') (word : String)
    (known : word ∈ watched) : word ∈ words ↔ word ∈ words' := by
  rcases alike with same | ⟨loose, loose'⟩
  · rw [same]
  · exact ⟨fun member => absurd known (loose.unwatched word member),
      fun member => absurd known (loose'.unwatched word member)⟩

theorem same_of_watched (words words' : List String) (alike : Alike words words') (word : String)
    (known : word ∈ watched) (member : word ∈ words) : words = words' := by
  rcases alike with same | ⟨loose, -⟩
  · exact same
  · exact absurd known (loose.unwatched word member)

include alike

theorem same_look : SameLook (parts.flatMap one) (parts.flatMap other) := by
  induction parts with
  | nil => exact ⟨fun _ _ => rfl, .inl rfl⟩
  | cons part parts ih =>
    have look := ih fun later member => alike later (List.mem_cons_of_mem part member)
    have here := alike part List.mem_cons_self
    rw [List.flatMap_cons, List.flatMap_cons]
    constructor
    · intro word known
      have members := mem_alike _ _ here word known
      have later := look.has word known
      rw [Bool.eq_iff_iff, List.contains_iff_mem, List.contains_iff_mem] at later ⊢
      rw [List.mem_append, List.mem_append, members, later]
    · rcases here with same | ⟨loose, loose'⟩
      · rw [← same]
        cases one part with
        | nil => exact look.head
        | cons a words => exact .inl rfl
      · obtain ⟨a, words, first⟩ := List.exists_cons_of_ne_nil loose.some
        obtain ⟨b, words', second⟩ := List.exists_cons_of_ne_nil loose'.some
        refine .inr ⟨a, b, ?_, ?_, loose.unwatched a ?_, loose'.unwatched b ?_⟩
        · rw [first]
          rfl
        · rw [second]
          rfl
        · rw [first]
          exact List.mem_cons_self
        · rw [second]
          exact List.mem_cons_self

theorem tables_same (agree : ∀ part ∈ parts.takeWhile
      (fun part => !(one part).any multiTableEnds.contains),
      one part = other part ∨
        (∀ word ∈ one part, ',' ∉ word.toList) ∧ ∀ word ∈ other part, ',' ∉ word.toList) :
    multiTableScan (parts.flatMap one) = multiTableScan (parts.flatMap other) := by
  have quiet : ∀ words : List String, Loose words → (∀ word ∈ words, ',' ∉ word.toList) →
      words.any decisive = false := by
    intro words loose commaless
    rw [List.any_eq_false]
    intro word member decides
    have unwatched := loose.unwatched word member
    have known : ∀ word ∈ multiTableEnds, word ∈ watched := by decide
    simp only [decisive, Bool.or_eq_true, decide_eq_true_eq, List.contains_iff_mem] at decides
    rcases decides with ((same | same) | same) | same
    · exact unwatched (by rw [same]; decide)
    · exact unwatched (by rw [same]; decide)
    · exact commaless word member (mem_of_endsWith word same)
    · exact unwatched (known word same)
  induction parts with
  | nil => rfl
  | cons part parts ih =>
    have later := ih fun later member => alike later (List.mem_cons_of_mem part member)
    have here := alike part List.mem_cons_self
    have known : ∀ word ∈ multiTableEnds, word ∈ watched := by decide
    rw [List.flatMap_cons, List.flatMap_cons, multiTableScan_append, multiTableScan_append]
    by_cases ends : (one part).any multiTableEnds.contains = true
    · obtain ⟨word, member, isEnd⟩ := List.any_eq_true.mp ends
      have decides : (one part).any decisive = true := by
        refine List.any_eq_true.mpr ⟨word, member, ?_⟩
        rw [decisive, isEnd, Bool.or_true]
      have same := same_of_watched _ _ here word
        (known word (List.contains_iff_mem.mp isEnd)) member
      rw [← same, decides]
      rfl
    · rw [List.takeWhile_cons_of_pos (by simpa using ends)] at agree
      have rest := later fun part' member => agree part' (List.mem_cons_of_mem part member)
      rw [rest]
      rcases here with same | ⟨loose, loose'⟩
      · rw [same]
      · rcases agree part List.mem_cons_self with same | ⟨plain, plain'⟩
        · rw [same]
        · rw [quiet _ loose plain, quiet _ loose' plain']
          rfl

theorem ends_same (agree : ∀ part ∈ parts.takeWhile
      (fun part => !(one part).any predicateEnds.contains), one part = other part) :
    (parts.flatMap one).takeWhile (fun word => !predicateEnds.contains word) =
      (parts.flatMap other).takeWhile fun word => !predicateEnds.contains word := by
  induction parts with
  | nil => rfl
  | cons part parts ih =>
    have later := ih fun later member => alike later (List.mem_cons_of_mem part member)
    have here := alike part List.mem_cons_self
    have known : ∀ word ∈ predicateEnds, word ∈ watched := by decide
    rw [List.flatMap_cons, List.flatMap_cons, List.takeWhile_append, List.takeWhile_append]
    by_cases ends : (one part).any predicateEnds.contains = true
    · obtain ⟨word, member, isEnd⟩ := List.any_eq_true.mp ends
      have same := same_of_watched _ _ here word
        (known word (List.contains_iff_mem.mp isEnd)) member
      have short : ((one part).takeWhile fun word => !predicateEnds.contains word).length ≠
          (one part).length := by
        intro full
        have whole := ( List.takeWhile_prefix _).eq_of_length full
        have passes := List.takeWhile_eq_self_iff.mp whole word member
        rw [isEnd] at passes
        cases passes
      rw [← same, if_neg short, if_neg short]
    · rw [List.takeWhile_cons_of_pos (by simpa using ends)] at agree
      have rest := later fun part' member => agree part' (List.mem_cons_of_mem part member)
      rw [rest, agree part List.mem_cons_self]

theorem predicate_same (agree : ∀ part ∈ (parts.dropWhile
      fun part => !(one part).contains "WHERE").tail.takeWhile
        fun part => !(one part).any predicateEnds.contains, one part = other part) :
    predicate (parts.flatMap one) = predicate (parts.flatMap other) := by
  induction parts with
  | nil => rfl
  | cons part parts ih =>
    have later := ih fun later member => alike later (List.mem_cons_of_mem part member)
    have here := alike part List.mem_cons_self
    rw [List.flatMap_cons, List.flatMap_cons]
    by_cases found : (one part).contains "WHERE" = true
    · rw [List.dropWhile_cons_of_neg (by simpa using found)] at agree
      have same := same_of_watched _ _ here "WHERE" (by decide) (List.contains_iff_mem.mp found)
      have behind := ends_same one other parts
        (fun later member => alike later (List.mem_cons_of_mem part member)) agree
      rw [← same, predicate_append _ _ found, predicate_append _ _ found, List.takeWhile_append,
        List.takeWhile_append, behind]
    · rw [Bool.not_eq_true] at found
      rw [List.dropWhile_cons_of_pos (by rw [found]; rfl)] at agree
      have absent : (other part).contains "WHERE" = false := by
        have members := mem_alike _ _ here "WHERE" (by decide)
        rw [List.contains_eq_mem, decide_eq_false_iff_not] at found ⊢
        exact fun member => found (members.mpr member)
      rw [predicate_skip _ _ found, predicate_skip _ _ absent]
      exact later agree

end Parts

section Commas

/-- No comma is in the words read or in the word being read. -/
structure Commaless (scanned : Scanned) : Prop where
  cur : ∀ word ∈ scanned.cur, ',' ∉ word.toList
  word : ',' ∉ scanned.word

theorem comma_toUpper (c : Char) (comma : c.toUpper = ',') : c = ',' := by
  by_cases lower : 97 ≤ c.toNat ∧ c.toNat ≤ 122
  · have all : ∀ n < 123, 97 ≤ n → (Char.ofNat n).toUpper ≠ ',' := by decide
    have apart := all c.toNat (by omega) lower.1
    rw [Char.ofNat_toNat] at apart
    exact absurd comma apart
  · rwa [toUpper_of_not_lower c lower] at comma

theorem flush_commaless (scanned : Scanned) (plain : Commaless scanned) :
    Commaless scanned.flush := by
  refine ⟨fun word member => ?_, by rw [flush_word]; exact List.not_mem_nil⟩
  rcases (mem_flush scanned word).mp member with before | ⟨-, rfl⟩
  · exact plain.cur word before
  · intro inside
    rw [upper, String.toList_ofList, List.mem_map] at inside
    obtain ⟨c, found, comma⟩ := inside
    rw [comma_toUpper c comma] at found
    exact plain.word found

theorem chars_commaless (chars : List Char) (plain : ',' ∉ chars) (scanned : Scanned)
    (before : Commaless scanned) : Commaless (chars.foldl Scanned.char scanned) := by
  induction chars generalizing scanned with
  | nil => exact before
  | cons c chars ih =>
    rw [List.mem_cons, not_or] at plain
    apply ih plain.2
    unfold Scanned.char
    split
    · refine ⟨before.cur, ?_⟩
      rw [Scanned.extend, List.mem_append, List.mem_singleton, not_or]
      exact ⟨before.word, plain.1⟩
    · exact flush_commaless scanned before

def commaless (run : List Joint) : Bool := run.all fun joint => !(wordChars
    joint.piece).contains ','

theorem words_commaless (gap : Joint → Bool) (run : List Joint)
    (isIn : ∀ joint ∈ run, inWord joint.piece = true) (plain : commaless run = true) :
    ∀ word ∈ wordsAt gap run, ',' ∉ word.toList := by
  have folds : ∀ (joints : List Joint) (scanned : Scanned), Commaless scanned →
      (∀ joint ∈ joints, inWord joint.piece = true ∧ ',' ∉ wordChars joint.piece) →
        Commaless (joints.foldl (Scanned.joint gap) scanned) := by
    intro joints
    induction joints with
    | nil => exact fun _ before _ => before
    | cons joint joints ih =>
      intro scanned before all
      have here := all joint List.mem_cons_self
      apply ih _ ?_ fun other member => all other (List.mem_cons_of_mem joint member)
      rw [Scanned.joint, absorb_chars _ _ here.1]
      apply chars_commaless _ here.2
      cases gap joint with
      | true => exact flush_commaless scanned before
      | false => exact before
  have started : Commaless .start := ⟨fun _ member => absurd member List.not_mem_nil,
    List.not_mem_nil⟩
  have whole := folds run .start started fun joint member =>
    ⟨isIn joint member, by simpa using List.all_eq_true.mp plain joint member⟩
  exact (flush_commaless _ whole).cur

end Commas

section Settled

def settledRun (run : List Joint) : Bool := sameRun run || calmRun run

def tablesSettled (parts : List (List Joint)) : Bool :=
  (parts.takeWhile fun run => !(wordsAt Joint.first run).any multiTableEnds.contains).all
    fun run => sameRun run || commaless run

def predicateSettled (parts : List (List Joint)) : Bool :=
  ((parts.dropWhile fun run => !(wordsAt Joint.first run).contains "WHERE").tail.takeWhile
    fun run => !(wordsAt Joint.first run).any predicateEnds.contains).all sameRun

def settledStmt (joints : List Joint) : Bool :=
  (runs joints).all settledRun &&
    (!guarded (wordsAt Joint.first joints) ||
      predicateSettled (runs joints) &&
        ((wordsAt Joint.first joints).head? = some "WITH" || tablesSettled (runs joints)))

theorem multiTable_scan (words : List String) (first : String) (head : words.head? = some first)
    (changes : first = "UPDATE" ∨ first = "DELETE") : multiTable words = multiTableScan words := by
  have passed : ∀ word rest, decisive word = false →
      multiTableScan (word :: rest) = multiTableScan rest := by
    intro word rest quiet
    have scanned := multiTableScan_append [word] rest
    rwa [List.any_cons, List.any_nil, quiet] at scanned
  obtain ⟨rest, rfl⟩ := eq_cons_of_head? words first head
  have opens : multiTableScan (first :: rest) = multiTableScan rest := by
    apply passed
    rcases changes with rfl | rfl <;> decide +kernel
  rw [opens, multiTable, List.tail_cons]
  split
  · exact (passed _ _ (by decide +kernel)).symm
  · rfl

theorem guarded_head (words : List String) (guard : guarded words = true)
    (plain : words.head? ≠ some "WITH") :
    ∃ first, words.head? = some first ∧ (first = "UPDATE" ∨ first = "DELETE") := by
  rw [guarded, Bool.and_eq_true] at guard
  cases head : words.head? with
  | none =>
    rw [head] at guard
    cases guard.1
  | some first =>
    rw [head] at guard plain
    have listed := List.contains_iff_mem.mp guard.1
    simp only [List.mem_cons, List.not_mem_nil, or_false] at listed
    exact ⟨first, rfl, listed.resolve_left fun same => plain (congrArg some same)⟩

theorem inWord_of_differs (run : List Joint) (linked : run.IsChain Linked)
    (differs : sameRun run = false) : ∀ joint ∈ run, inWord joint.piece = true := by
  match run, linked, differs with
  | [], _, differs | [_], _, differs => cases differs
  | one :: next :: rest, linked, _ => exact linked_inWord one next rest linked

theorem stmt_same (joints : List Joint) (apart : joints.IsChain NamesApart)
    (uncut : ∀ joint ∈ joints, joint.cuts = false) (settled : settledStmt joints = true) :
    classifyStmt (wordsAt Joint.first joints) = classifyStmt (wordsAt Joint.second joints) := by
  have first := words_runs Joint.first (fun joint both => (Bool.and_eq_true_iff.mp both).1)
    joints uncut
  have second := words_runs Joint.second (fun joint both => (Bool.and_eq_true_iff.mp both).2)
    joints uncut
  simp only [settledStmt, Bool.and_eq_true, List.all_eq_true] at settled
  obtain ⟨each, whole⟩ := settled
  have linked := linked_run joints apart
  have alike : ∀ run ∈ runs joints, Alike (wordsAt Joint.first run) (wordsAt Joint.second run) :=
    fun run member => run_alike run (linked run member) (each run member)
  have look := same_look _ _ _ alike
  rw [first] at whole
  rw [first, second]
  refine classify_same _ _ look (fun guard => ?_) fun guard plain => ?_
  · rw [guard] at whole
    simp only [Bool.not_true, Bool.false_or, Bool.and_eq_true] at whole
    have same := predicate_same _ _ _ alike fun run member =>
      words_same run (List.all_eq_true.mp whole.1 run member)
    rw [tautology, same, ← tautology]
  · rw [guard] at whole
    simp only [Bool.not_true, Bool.false_or, Bool.and_eq_true, Bool.or_eq_true,
      decide_eq_true_eq] at whole
    have tables := whole.2.resolve_left plain
    obtain ⟨word, head, changes⟩ := guarded_head _ guard plain
    have head' : ((runs joints).flatMap (wordsAt Joint.second)).head? = some word := by
      rcases look.head with same | ⟨a, b, begins, -, unwatched, -⟩
      · rw [← same, head]
      · rw [head] at begins
        cases begins
        rcases changes with rfl | rfl <;> exact absurd (by decide) unwatched
    rw [multiTable_scan _ word head changes, multiTable_scan _ word head' changes]
    apply tables_same _ _ _ alike
    intro run member
    have inside := (List.takeWhile_sublist _).subset member
    have agree := List.all_eq_true.mp tables run member
    by_cases same : sameRun run = true
    · exact .inl (words_same run same)
    · have plain := (Bool.or_eq_true_iff.mp agree).resolve_left same
      have isIn := inWord_of_differs run (linked run inside) (Bool.not_eq_true _ |>.mp same)
      exact .inr ⟨words_commaless Joint.first run isIn plain,
        words_commaless Joint.second run isIn plain⟩

end Settled

section Variants

/-- The other text has the same tokens, and a semicolon behind them where `ended`. -/
def LayoutVariant (sql other : List Char) (ended : Bool) : Prop :=
  (layoutTokens other).map Prod.snd =
    (layoutTokens sql).map Prod.snd ++ if ended then [.other ';'] else []

instance (sql other : List Char) (ended : Bool) : Decidable (LayoutVariant sql other ended) :=
  inferInstanceAs (Decidable (_ = _))

structure SameClass (sql other : List Char) : Prop where
  risk : (classify sql).risk = (classify other).risk
  dangerous : (classify sql).dangerous = (classify other).dangerous

/-- Layout and a semicolon at the end change nothing. -/
def LayoutLaw : Prop :=
  ∀ sql other ended, LayoutVariant sql other ended → SameClass sql other

def settled (sql other : List Char) : Bool :=
  ((jointsOf (layoutTokens sql) (layoutTokens other)).splitOnP Joint.cuts).all settledStmt

def knownFirst : List String :=
  ["SELECT", "INSERT", "REPLACE", "MERGE", "UPDATE", "DELETE", "TRUNCATE", "DROP", "ALTER",
    "CREATE", "RENAME", "GRANT", "REVOKE", "BEGIN", "COMMIT", "ROLLBACK", "SAVEPOINT", "RELEASE",
    "START", "COPY", "LOAD", "CALL", "EXECUTE", "USE", "ATTACH", "DETACH", "SHOW", "EXPLAIN",
    "DESCRIBE", "DESC", "PRAGMA", "ANALYZE", "VALUES", "KILL"]

/-- A statement of no known kind: an empty one, a `WITH` that changes nothing, a `SET` of
something other than session state, or one that begins with no known word. -/
def unrecognised : List String → Bool
  | [] => true
  | "WITH" :: rest => rest.all fun word => (withWordRisk word).all (· = .readOnly)
  | "SET" :: rest => !(["GLOBAL", "SESSION", "SEARCH_PATH"].any rest.contains)
  | first :: _ => !knownFirst.contains first

def hasUnrecognised (sql : List Char) : Bool :=
  match statements sql with
  | none => true
  | some stmts => stmts.any unrecognised

variable (words : List String)

theorem withRisk_quiet_iff :
    severity (withRisk words) = 0 ↔
      (words.all fun word => (withWordRisk word).all (· = .readOnly)) = true := by
  have zero : ∀ risk, severity risk ≤ 0 → risk = .readOnly := by
    intro risk below
    apply severity_injective
    exact Nat.le_zero.mp below
  rw [List.all_eq_true]
  constructor
  · intro quiet word member
    cases known : withWordRisk word with
    | none => rfl
    | some risk =>
      have below := (severity_le_foldl_worse (words.filterMap withWordRisk) .readOnly).2 risk
        (List.mem_filterMap.mpr ⟨word, member, known⟩)
      rw [← withRisk, quiet] at below
      rw [zero risk below]
      rfl
  · intro all
    rcases foldl_worse_mem (words.filterMap withWordRisk) .readOnly with same | member
    · rw [withRisk, same]
      rfl
    · obtain ⟨word, read, known⟩ := List.mem_filterMap.mp member
      have quiet := all word read
      rw [known, Option.all_some, decide_eq_true_eq] at quiet
      rw [withRisk, quiet]
      rfl

theorem withRisk_ne_unknown : withRisk words ≠ .unknown := by
  have never : ∀ word, withWordRisk word ≠ some .unknown := by
    intro word
    unfold withWordRisk
    split_ifs <;> simp
  rcases foldl_worse_mem (words.filterMap withWordRisk) .readOnly with same | member
  · rw [withRisk, same]
    decide
  · intro unknown
    rw [← withRisk, unknown] at member
    obtain ⟨word, -, known⟩ := List.mem_filterMap.mp member
    exact never word known

variable (rest : List String)

theorem withRisk_unknown_iff :
    stmtRisk ("WITH" :: rest) = .unknown ↔
      (rest.all fun word => (withWordRisk word).all (· = .readOnly)) = true := by
  have quiet := withRisk_quiet_iff ("WITH" :: rest)
  rw [List.all_cons, show (withWordRisk "WITH").all (· = .readOnly) = true from rfl,
    Bool.true_and] at quiet
  have known := withRisk_ne_unknown ("WITH" :: rest)
  rw [stmtRisk, classify_with, ← quiet]
  split
  · rename_i zero
    simp [zero]
  · rename_i positive
    simp [known, positive]

theorem set_unknown_iff :
    stmtRisk ("SET" :: rest) = .unknown ↔
      (!(["GLOBAL", "SESSION", "SEARCH_PATH"].any rest.contains)) = true := by
  have has : ∀ word, word ≠ "SET" → ("SET" :: rest).contains word = rest.contains word := by
    intro word apart
    rw [Bool.eq_iff_iff, List.contains_iff_mem, List.contains_iff_mem, List.mem_cons]
    exact or_iff_right apart
  have risk : stmtRisk ("SET" :: rest) =
      (if ("SET" :: rest).contains "GLOBAL" || ("SET" :: rest).contains "SESSION" ||
        ("SET" :: rest).contains "SEARCH_PATH" then (.write, false) else (.unknown, false) :
          Risk × Bool).1 := rfl
  rw [risk, has _ (by decide), has _ (by decide), has _ (by decide), List.any_cons, List.any_cons,
    List.any_cons, List.any_nil, Bool.or_false, Bool.or_assoc]
  generalize (rest.contains "GLOBAL" || (rest.contains "SESSION" || rest.contains "SEARCH_PATH")) =
    global
  cases global <;> decide

theorem unknown_iff :
    stmtRisk words = .unknown ↔ unrecognised words = true := by
  cases words with
  | nil => simp [stmtRisk, classifyStmt, unrecognised]
  | cons first rest =>
    by_cases opens : first = "WITH"
    · subst opens
      exact withRisk_unknown_iff rest
    by_cases sets : first = "SET"
    · subst sets
      exact set_unknown_iff rest
    have plain : unrecognised (first :: rest) = !knownFirst.contains first := by
      unfold unrecognised
      split <;> simp_all
    rw [plain]
    by_cases known : first ∈ knownFirst
    · have listed := List.contains_iff_mem.mpr known
      rw [listed]
      simp only [knownFirst, List.mem_cons, List.not_mem_nil, or_false] at known
      rcases known with rfl | rfl | rfl | rfl | rfl | rfl | rfl | rfl | rfl | rfl | rfl | rfl |
        rfl | rfl | rfl | rfl | rfl | rfl | rfl | rfl | rfl | rfl | rfl | rfl | rfl | rfl | rfl |
        rfl | rfl | rfl | rfl | rfl | rfl | rfl <;> simp [stmtRisk, classifyStmt]
      split_ifs <;> simp
    · have apart : ∀ word ∈ knownFirst, first ≠ word := fun word member same =>
        known (same ▸ member)
      have unlisted : ∀ words : List String, (∀ word ∈ words, word ∈ knownFirst) →
          words.contains first = false := by
        intro words all
        rw [List.contains_eq_mem, decide_eq_false_iff_not]
        exact fun member => known (all first member)
      rw [unlisted knownFirst fun _ member => member]
      unfold stmtRisk classifyStmt
      simp (disch := decide) only [apart, unlisted, opens, sets, if_false, Bool.false_eq_true,
        Bool.not_false]

theorem jointsOf_sides (extra : List Piece) (one other : List (Bool × Piece))
    (same : other.map Prod.snd = one.map Prod.snd ++ extra) :
    one = (jointsOf one other).map (fun joint => (joint.first, joint.piece)) ∧
      ∃ behind, other = (jointsOf one other).map (fun joint => (joint.second,
        joint.piece)) ++ behind ∧
        behind.map Prod.snd = extra := by
  induction one generalizing other with
  | nil => exact ⟨rfl, other, rfl, same⟩
  | cons token one ih =>
    cases other with
    | nil => cases same
    | cons token' other =>
      rw [List.map_cons, List.map_cons, List.cons_append, List.cons.injEq] at same
      obtain ⟨first, behind, second, extra⟩ := ih other same.2
      refine ⟨congrArg (token :: ·) first, behind, ?_, extra⟩
      have here : token' = (token'.1, token.2) := Prod.ext rfl same.1
      rw [jointsOf, List.zipWith_cons_cons, ← jointsOf, List.map_cons, List.cons_append,
        ← second, ← here]

variable (sql : List Char)

variable (token : Bool × Piece)

theorem tokens_solid (member : token ∈ layoutTokens sql) :
    token.2.isLayout = false := by
  unfold layoutTokens at member
  split at member
  · exact (mem_of_mem_spaced _ _ token member).2
  · cases member

theorem name_of_token (member : token ∈ layoutTokens sql) (isIn : inWord token.2 = true)
    (plain : markPiece token.2 = false) : token.2.isName = true := by
  unfold layoutTokens at member
  split at member
  · rename_i pieces read
    have inside := (mem_of_mem_spaced _ _ token member).1
    have lexes := (pieces_iff (sqlLexer scannerDialect) sql pieces).mp read
    obtain ⟨c, rest, left, reading⟩ := reading_of_mem scannerDialect [] sql pieces lexes _ inside
    generalize token.2 = piece at isIn plain reading ⊢
    cases reading with
    | name => rfl
    | literal | quoted | bracket | line | hash | live | block => cases isIn
    | other c rest unquoted minus hash slash apart known =>
      have letter : isWordChar c = true := isIn
      have mark : isMark c = false := plain
      simp only [isMark] at mark
      simp only [isNameChar, Bool.or_eq_false_iff] at apart
      simp [isWordChar, mark, apart] at letter
  · cases member

theorem tokens_apart :
    (layoutTokens sql).IsChain fun one next =>
      inWord one.2 = true → inWord next.2 = true → markPiece one.2 = false →
        markPiece next.2 = false → next.1 = true := by
  have names : (layoutTokens sql).IsChain fun one next =>
      one.2.isName = true → next.2.isName = true → next.1 = true := by
    unfold layoutTokens
    split
    · rename_i pieces read
      have lexes := (pieces_iff (sqlLexer scannerDialect) sql pieces).mp read
      exact spaced_names pieces (names_apart scannerDialect [] sql pieces lexes) false
    · exact .nil
  refine names.imp_of_mem_imp fun one next member behind apart isIn goes plain plain' => ?_
  exact apart (name_of_token sql one member isIn plain) (name_of_token sql next behind goes plain')

theorem same_class_iff (other : List Char) (stmts stmts' : List (List String))
    (scanned : statements sql = some stmts) (scanned' : statements other = some stmts') :
    SameClass sql other ↔
      ((stmts.map classifyStmt).map Prod.fst).foldl worse .readOnly =
          ((stmts'.map classifyStmt).map Prod.fst).foldl worse .readOnly ∧
        (stmts.map classifyStmt).any Prod.snd = (stmts'.map classifyStmt).any Prod.snd := by
  have risk : ∀ sql stmts, statements sql = some stmts →
      (classify sql).risk = ((stmts.map classifyStmt).map Prod.fst).foldl worse .readOnly ∧
        (classify sql).dangerous = (stmts.map classifyStmt).any Prod.snd := by
    intro sql stmts scanned
    simp only [classify, scanned, List.map_map, List.any_map]
    exact ⟨rfl, rfl⟩
  rw [← (risk sql stmts scanned).1, ← (risk other stmts' scanned').1,
    ← (risk sql stmts scanned).2, ← (risk other stmts' scanned').2]
  exact ⟨fun same => ⟨same.risk, same.dangerous⟩, fun same => ⟨same.1, same.2⟩⟩

theorem variant_joints (other : List Char) (ended : Bool)
    (variant : LayoutVariant sql other ended) :
    ∃ joints behind : List Joint,
      joints = jointsOf (layoutTokens sql) (layoutTokens other) ∧
        layoutTokens sql = joints.map (fun joint => (joint.first, joint.piece)) ∧
        layoutTokens other =
          (joints ++ behind).map (fun joint => (joint.second, joint.piece)) ∧
        behind.map Joint.piece = if ended then [.other ';'] else [] := by
  obtain ⟨first, behind, second, extra⟩ := jointsOf_sides _ _ _ variant
  refine ⟨_, behind.map fun token => ⟨token.1, token.1, token.2⟩, rfl, first, ?_, ?_⟩
  · rw [List.map_append, List.map_map]
    refine second.trans (congrArg (_ ++ ·) ?_)
    exact (List.map_id behind).symm
  · rw [List.map_map]
    exact extra

theorem classes_same (joints : List Joint) (apart : joints.IsChain NamesApart)
    (settled : (joints.splitOnP Joint.cuts).all settledStmt = true) :
    ((joints.splitOnP Joint.cuts).map (wordsAt Joint.first)).map classifyStmt =
      ((joints.splitOnP Joint.cuts).map (wordsAt Joint.second)).map classifyStmt := by
  rw [List.map_map, List.map_map]
  apply List.map_congr_left
  intro stmt member
  have inner := List.IsChain.infix apart (infix_of_mem_splitOnP Joint.cuts joints stmt member)
  exact stmt_same stmt inner (uncut_of_mem_splitOnP Joint.cuts joints stmt member)
    (List.all_eq_true.mp settled stmt member)

theorem names_apart_joints (other : List Char) (joints behind : List Joint)
    (first : layoutTokens sql = joints.map fun joint => (joint.first, joint.piece))
    (second : layoutTokens other =
      (joints ++ behind).map fun joint => (joint.second, joint.piece)) :
    joints.IsChain NamesApart := by
  have one := tokens_apart sql
  have two := tokens_apart other
  rw [first, List.isChain_map] at one
  rw [second, List.isChain_map] at two
  refine (chain_and one two.left_of_append).imp fun joint next both => ?_
  intro isIn goes plain plain'
  exact Bool.and_eq_true_iff.mpr
    ⟨both.1 isIn goes plain plain', both.2 isIn goes plain plain'⟩

theorem ended_class (classes : List (Risk × Bool)) :
    ((classes ++ [(Risk.unknown, false)]).map Prod.fst).foldl worse .readOnly = .unknown ∧
      (classes ++ [(Risk.unknown, false)]).any Prod.snd = classes.any Prod.snd := by
  constructor
  · rw [List.map_append, List.foldl_append]
    cases (classes.map Prod.fst).foldl worse .readOnly <;> rfl
  · rw [List.any_append]
    exact Bool.or_false _

theorem unknown_of_classes (stmts : List (List String)) :
    ((stmts.map classifyStmt).map Prod.fst).foldl worse .readOnly = .unknown ↔
      stmts.any unrecognised = true := by
  rw [List.any_eq_true]
  constructor
  · intro unknown
    rcases foldl_worse_mem ((stmts.map classifyStmt).map Prod.fst) .readOnly with same | member
    · rw [unknown] at same
      cases same
    · rw [unknown, List.map_map] at member
      obtain ⟨words, listed, risk⟩ := List.mem_map.mp member
      exact ⟨words, listed, (unknown_iff words).mp risk⟩
  · rintro ⟨words, listed, isUnknown⟩
    have risk := (unknown_iff words).mpr isUnknown
    have above := (severity_le_foldl_worse ((stmts.map classifyStmt).map Prod.fst) .readOnly).2
      (stmtRisk words) (by rw [List.map_map]; exact List.mem_map_of_mem listed)
    rw [risk] at above
    generalize ((stmts.map classifyStmt).map Prod.fst).foldl worse .readOnly = worst at above ⊢
    cases worst <;> first | rfl | (exfalso; revert above; decide)

theorem same_class_unscanned (other : List Char) (none_ : statements sql = none)
    (none_' : statements other = none) : SameClass sql other := by
  constructor
  · rw [classify, classify, none_, none_']
  · rw [classify, classify, none_, none_']

/-- Where the texts agree about layout, they are classified alike; a semicolon at the end
changes nothing if and only if some statement is of no known kind anyway. -/
theorem classify_layout (sql other : List Char) (ended : Bool)
    (variant : LayoutVariant sql other ended) (agree : settled sql other = true) :
    SameClass sql other ↔ (ended = true → hasUnrecognised sql = true) := by
  obtain ⟨joints, behind, same, first, second, extra⟩ := variant_joints sql other ended variant
  rw [settled, ← same] at agree
  have classes :=
    classes_same joints (names_apart_joints sql other joints behind first second) agree
  have solid : ∀ joint ∈ joints, joint.piece.isLayout = false := fun joint member =>
    tokens_solid sql (joint.first, joint.piece) (by rw [first]; exact List.mem_map_of_mem member)
  have solid' : ∀ joint ∈ joints ++ behind, joint.piece.isLayout = false := fun joint member =>
    tokens_solid other (joint.second, joint.piece)
      (by rw [second]; exact List.mem_map_of_mem member)
  have one := statements_joints Joint.first joints solid sql first
  have two := statements_joints Joint.second (joints ++ behind) solid' other second
  rw [List.all_append] at two
  by_cases closed : joints.all (·.piece.closed) = true
  · rw [if_pos closed] at one
    rw [closed] at two
    cases ended with
    | false =>
      rw [List.map_eq_nil_iff.mp extra, List.append_nil] at two
      refine ⟨fun _ impossible => absurd impossible Bool.false_ne_true, fun _ => ?_⟩
      rw [same_class_iff sql other _ _ one two, classes]
      exact ⟨rfl, rfl⟩
    | true =>
      obtain ⟨last, rest, rfl, isEnd, nothing⟩ := List.map_eq_cons_iff.mp extra
      rw [List.map_eq_nil_iff.mp nothing] at two
      have cuts : last.cuts = true := decide_eq_true isEnd
      rw [List.all_cons, isEnd, List.splitOnP_append_cons _ _ cuts, List.map_append] at two
      have two : statements other =
          some ((joints.splitOnP Joint.cuts).map (wordsAt Joint.second) ++ [[]]) := two
      have unrecognised : hasUnrecognised sql =
          ((joints.splitOnP Joint.cuts).map (wordsAt Joint.first)).any unrecognised := by
        rw [hasUnrecognised, one]
      have ending := ended_class
        (((joints.splitOnP Joint.cuts).map (wordsAt Joint.second)).map classifyStmt)
      have appended : ((joints.splitOnP Joint.cuts).map (wordsAt Joint.second) ++ [[]]).map
          classifyStmt = ((joints.splitOnP Joint.cuts).map (wordsAt Joint.second)).map
            classifyStmt ++ [(.unknown, false)] := List.map_append
      rw [same_class_iff sql other _ _ one two, appended, unrecognised, ← unknown_of_classes,
        classes]
      refine Iff.trans ⟨fun same => ?_, fun same => ?_⟩ (forall_prop_of_true rfl).symm
      · exact same.1.trans ending.1
      · exact ⟨same.trans ending.1.symm, ending.2.symm⟩
  · rw [if_neg closed] at one
    rw [Bool.not_eq_true _ |>.mp closed] at two
    have unrecognised : hasUnrecognised sql = true := by
      rw [hasUnrecognised, one]
    exact ⟨fun _ _ => unrecognised, fun _ => same_class_unscanned sql other one two⟩

/-- A select keeps its class under any layout of its columns, its `WHERE` and its end. -/
theorem classify_layout_select :
    SameClass "SELECT a,b FROM t WHERE t.id=1".toList
      "SELECT a , b -- columns\nFROM t/*all*/WHERE t.id = 1 ".toList ↔
        (false = true → hasUnrecognised "SELECT a,b FROM t WHERE t.id=1".toList = true) :=
  classify_layout _ _ false (by decide +kernel) (by decide +kernel)

/-- Without the space behind the comma an update of two tables is not seen as one. -/
theorem multi_table_depends_on_layout : ¬LayoutLaw := by
  intro law
  have same := law "UPDATE a, b SET x = 1 WHERE a.id = b.id".toList
    "UPDATE a,b SET x = 1 WHERE a.id = b.id".toList false (by decide +kernel)
  have apart : (classify "UPDATE a, b SET x = 1 WHERE a.id = b.id".toList).dangerous ≠
      (classify "UPDATE a,b SET x = 1 WHERE a.id = b.id".toList).dangerous := by decide +kernel
  exact apart same.dangerous

end Variants

end OnlyJs.Bridge.DbPolicy
