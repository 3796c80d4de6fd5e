import OnlyJs.Lib.Text

/-!
# The statement text of the decision log

Before a statement is logged, its literals and comments are erased, the values that are
assigned to `password`, `token` and `secret` are masked, and the text is cut at 512 bytes.
-/

namespace OnlyJs.Bridge.DbPolicy.RedactSql

open Lib.Text List

abbrev Sql := List Char

def byteLength (text : Sql) : Nat := (text.map Char.utf8Size).sum

inductive Place where
  | text
  | literal
  | escaped
  | line
  | block
deriving DecidableEq

/-- The loop over the bytes. All marks are ASCII, so it is a loop over characters. -/
def erase : Place → Sql → Sql
  | .text, '\'' :: rest => '?' :: erase .literal rest
  | .text, '-' :: '-' :: rest => ' ' :: erase .line rest
  | .text, '/' :: '*' :: rest => ' ' :: erase .block rest
  | .text, char :: rest => char :: erase .text rest
  | .literal, '\\' :: rest => erase .escaped rest
  | .literal, '\'' :: rest => erase .text rest
  | .literal, _ :: rest => erase .literal rest
  | .escaped, _ :: rest => erase .literal rest
  | .line, '\n' :: rest => '\n' :: erase .text rest
  | .line, _ :: rest => erase .line rest
  | .block, '*' :: '/' :: rest => erase .text rest
  | .block, _ :: rest => erase .block rest
  | _, [] => []

inductive Key where
  | password
  | token
  | secret
deriving DecidableEq

def Key.text : Key → Sql
  | .password => ['p', 'a', 's', 's', 'w', 'o', 'r', 'd']
  | .token => ['t', 'o', 'k', 'e', 'n']
  | .secret => ['s', 'e', 'c', 'r', 'e', 't']

theorem drop_key (key : Key) (char : Char) (rest : Sql) :
    ((char :: rest).drop key.text.length).length < (char :: rest).length := by
  rw [length_drop]
  exact Nat.sub_lt (Nat.succ_pos _) (by cases key <;> decide)

/-- What stands before the first `key` in any case, the word as written, and the rest. -/
def find (key : Key) : (s : Sql) → Option { parts : Sql × Sql × Sql // parts.2.2.length < s.length }
  | [] => none
  | char :: rest =>
    if ((char :: rest).take key.text.length).map Char.toLower = key.text then
      some ⟨([], (char :: rest).take key.text.length, (char :: rest).drop key.text.length),
        drop_key key char rest⟩
    else
      (find key rest).map fun parts =>
        ⟨(char :: parts.1.1, parts.1.2), Nat.lt_succ_of_lt parts.2⟩

theorem dropWhile_le (condition : Char → Bool) (s : Sql) :
    (s.dropWhile condition).length ≤ s.length :=
  (dropWhile_suffix condition).length_le

def assigned (after : Sql) : Option { tail : Sql // tail.length < after.length } :=
  match rest : after.dropWhile isWhitespace with
  | '=' :: tail => some ⟨tail, by
      have short := dropWhile_le isWhitespace after
      rwa [rest] at short⟩
  | _ => none

def valueEnds (char : Char) : Bool :=
  isWhitespace char || char == ';' || char == ',' || char == ')' || char == '&'

def valueOf (tail : Sql) : Sql := tail.takeWhile (!valueEnds ·)

def afterValue (tail : Sql) : Sql := tail.dropWhile (!valueEnds ·)

theorem afterValue_le (tail : Sql) : (afterValue tail).length ≤ tail.length :=
  dropWhile_le _ _

def mask : Sql := ['*', '*', '*']

def maskAssignments (key : Key) (s : Sql) : Sql :=
  match find key s with
  | none => s
  | some ⟨(before, word, after), _shorter⟩ =>
    match assigned after with
    | none => before ++ word ++ maskAssignments key after
    | some ⟨tail, _short⟩ =>
      before ++ word ++ after.takeWhile isWhitespace ++ '=' ::
        if valueOf tail = [] then maskAssignments key tail
        else if byteLength (valueOf tail) = 3 then
          mask ++ maskAssignments key (afterValue tail)
        else mask ++ afterValue tail
termination_by s.length
decreasing_by
  · exact _shorter
  · exact _short.trans _shorter
  · exact ((afterValue_le tail).trans_lt _short).trans _shorter

/-- `String::truncate`, which panics inside a character. -/
def truncate : Nat → Sql → Option Sql
  | _, [] => some []
  | bytes, char :: rest =>
    if bytes = 0 then some []
    else if bytes < char.utf8Size then none
    else (truncate (bytes - char.utf8Size) rest).map (char :: ·)

def cutLong (s : Sql) : Option Sql :=
  if 512 < byteLength s then (truncate 512 s).map (· ++ ['…']) else some s

/-- `none` is a panic. -/
def redactSql (sql : Sql) : Option Sql :=
  cutLong ([Key.password, .token, .secret].foldl (fun s key => maskAssignments key s)
    (erase .text sql))

example : redactSql "grant all to u identified by 'x'; token=abc".toList =
    some "grant all to u identified by ?; token=***".toList := by
  decide +kernel

/-- The scan of the reference also knows names in quotes. -/
inductive Scan where
  | plain (place : Place)
  | name (mark : Char)
deriving DecidableEq

def inName (mark char : Char) : Scan := if char = mark then .plain .text else .name mark

def withoutLiterals : Scan → Sql → Sql
  | .plain .text, '\'' :: rest => '?' :: withoutLiterals (.plain .literal) rest
  | .plain .text, '"' :: rest => '"' :: withoutLiterals (.name '"') rest
  | .plain .text, '\x60' :: rest => '\x60' :: withoutLiterals (.name '\x60') rest
  | .plain .text, '-' :: '-' :: rest => ' ' :: withoutLiterals (.plain .line) rest
  | .plain .text, '/' :: '*' :: rest => ' ' :: withoutLiterals (.plain .block) rest
  | .plain .text, char :: rest => char :: withoutLiterals (.plain .text) rest
  | .name mark, char :: rest => char :: withoutLiterals (inName mark char) rest
  | .plain .literal, '\\' :: rest => withoutLiterals (.plain .escaped) rest
  | .plain .literal, '\'' :: '\'' :: rest => withoutLiterals (.plain .literal) rest
  | .plain .literal, '\'' :: rest => withoutLiterals (.plain .text) rest
  | .plain .literal, _ :: rest => withoutLiterals (.plain .literal) rest
  | .plain .escaped, _ :: rest => withoutLiterals (.plain .literal) rest
  | .plain .line, '\n' :: rest => '\n' :: withoutLiterals (.plain .text) rest
  | .plain .line, _ :: rest => withoutLiterals (.plain .line) rest
  | .plain .block, '*' :: '/' :: rest => withoutLiterals (.plain .text) rest
  | .plain .block, _ :: rest => withoutLiterals (.plain .block) rest
  | _, [] => []

def withoutValues (key : Key) (s : Sql) : Sql :=
  match find key s with
  | none => s
  | some ⟨(before, word, after), _shorter⟩ =>
    match assigned after with
    | none => before ++ word ++ withoutValues key after
    | some ⟨tail, _short⟩ =>
      before ++ word ++ after.takeWhile isWhitespace ++ '=' ::
        if valueOf (trimStart tail) = [] then withoutValues key tail
        else
          tail.takeWhile isWhitespace ++ mask ++
            withoutValues key (afterValue (trimStart tail))
termination_by s.length
decreasing_by
  · exact _shorter
  · exact _short.trans _shorter
  · exact (((afterValue_le _).trans (dropWhile_le _ tail)).trans_lt _short).trans _shorter

/-- No literal has a quote written twice, and no name in quotes has a quote or the start of a
comment in it. -/
def Erasable : Scan → Sql → Prop
  | .plain .text, '\'' :: rest => Erasable (.plain .literal) rest
  | .plain .text, '"' :: rest => Erasable (.name '"') rest
  | .plain .text, '\x60' :: rest => Erasable (.name '\x60') rest
  | .plain .text, '-' :: '-' :: rest => Erasable (.plain .line) rest
  | .plain .text, '/' :: '*' :: rest => Erasable (.plain .block) rest
  | .plain .text, _ :: rest => Erasable (.plain .text) rest
  | .name _, '\'' :: _ => False
  | .name _, '-' :: '-' :: _ => False
  | .name _, '/' :: '*' :: _ => False
  | .name mark, char :: rest => Erasable (inName mark char) rest
  | .plain .literal, '\\' :: rest => Erasable (.plain .escaped) rest
  | .plain .literal, '\'' :: '\'' :: _ => False
  | .plain .literal, '\'' :: rest => Erasable (.plain .text) rest
  | .plain .literal, _ :: rest => Erasable (.plain .literal) rest
  | .plain .escaped, _ :: rest => Erasable (.plain .literal) rest
  | .plain .line, '\n' :: rest => Erasable (.plain .text) rest
  | .plain .line, _ :: rest => Erasable (.plain .line) rest
  | .plain .block, '*' :: '/' :: rest => Erasable (.plain .text) rest
  | .plain .block, _ :: rest => Erasable (.plain .block) rest
  | _, [] => True

def Scan.place : Scan → Place
  | .plain place => place
  | .name _ => .text

theorem inName_place (mark char : Char) : (inName mark char).place = .text := by
  unfold inName
  split <;> rfl

theorem erase_eq {scan : Scan} {s : Sql} (erasable : Erasable scan s) :
    erase scan.place s = withoutLiterals scan s := by
  fun_induction Erasable scan s with
  | case10 mark char rest plain lines blocks ih =>
    rw [withoutLiterals, ← ih erasable, inName_place]
    simp [Scan.place, erase]
  | _ => simp_all [erase, withoutLiterals, Scan.place]

theorem valueOf_spaced {tail : Sql} (empty : valueOf (trimStart tail) = []) :
    valueOf tail = [] := by
  cases tail with
  | nil => rfl
  | cons char rest =>
    by_cases space : isWhitespace char = true
    · simp [valueOf, valueEnds, space]
    · rwa [trimStart, dropWhile_cons_of_neg space] at empty

/-- No value stands behind spaces, and behind a masked value that had not the length of the
mask nothing is left to mask. -/
inductive Maskable (key : Key) : Sql → Prop
  | absent {s : Sql} (found : find key s = none) : Maskable key s
  | unassigned {s before word after : Sql} {shorter}
      (found : find key s = some ⟨(before, word, after), shorter⟩)
      (equals : assigned after = none) (later : Maskable key after) : Maskable key s
  | empty {s before word after tail : Sql} {shorter short}
      (found : find key s = some ⟨(before, word, after), shorter⟩)
      (equals : assigned after = some ⟨tail, short⟩) (empty : valueOf (trimStart tail) = [])
      (later : Maskable key tail) : Maskable key s
  | same {s before word after tail : Sql} {shorter short}
      (found : find key s = some ⟨(before, word, after), shorter⟩)
      (equals : assigned after = some ⟨tail, short⟩) (close : trimStart tail = tail)
      (length : byteLength (valueOf tail) = 3) (later : Maskable key (afterValue tail)) :
      Maskable key s
  | last {s before word after tail : Sql} {shorter short}
      (found : find key s = some ⟨(before, word, after), shorter⟩)
      (equals : assigned after = some ⟨tail, short⟩) (close : trimStart tail = tail)
      (given : valueOf tail ≠ []) (length : byteLength (valueOf tail) ≠ 3)
      (later : withoutValues key (afterValue tail) = afterValue tail) : Maskable key s

theorem mask_eq {key : Key} {s : Sql} (maskable : Maskable key s) :
    maskAssignments key s = withoutValues key s := by
  have spaceless {tail : Sql} (close : trimStart tail = tail) :
      tail.takeWhile isWhitespace = [] := by
    have whole := takeWhile_append_dropWhile (p := isWhitespace) (l := tail)
    rw [← trimStart, close] at whole
    exact append_left_eq_self.mp whole
  induction maskable with
  | absent found =>
    rw [maskAssignments, withoutValues]
    simp [found]
  | unassigned found equals later ih =>
    rw [maskAssignments, withoutValues]
    simp [found, equals, ih]
  | empty found equals empty later ih =>
    rw [maskAssignments, withoutValues]
    simp [found, equals, ih, empty, valueOf_spaced empty]
  | same found equals close length later ih =>
    have given : valueOf _ ≠ [] := fun none => by rw [none] at length; cases length
    rw [maskAssignments, withoutValues]
    simp [found, equals, ih, close, given, length, spaceless close]
  | last found equals close given length later =>
    rw [maskAssignments, withoutValues]
    simp [found, equals, close, given, length, later, spaceless close]

theorem truncate_length {bytes : Nat} {s out : Sql} (cut : truncate bytes s = some out) :
    byteLength out ≤ bytes := by
  induction s generalizing bytes out with
  | nil =>
    cases cut
    exact Nat.zero_le _
  | cons char rest ih =>
    rw [truncate] at cut
    split_ifs at cut with empty inside
    · cases cut
      exact Nat.zero_le _
    · obtain ⟨kept, later, rfl⟩ := Option.map_eq_some_iff.mp cut
      have bound := ih later
      simp only [byteLength, map_cons, sum_cons] at *
      omega

theorem truncate_append {bytes : Nat} {front : Sql} (back : Sql)
    (length : byteLength front = bytes) : truncate bytes (front ++ back) = some front := by
  induction front generalizing bytes with
  | nil =>
    subst length
    cases back <;> rfl
  | cons char front ih =>
    simp only [byteLength, map_cons, sum_cons] at length
    have size := char.utf8Size_pos
    rw [cons_append, truncate, if_neg (by omega), if_neg (by omega),
      ih (by simp only [byteLength]; omega)]
    rfl

def withoutSecrets (sql : Sql) : Sql :=
  [Key.password, .token, .secret].foldl (fun s key => withoutValues key s)
    (withoutLiterals (.plain .text) sql)

/-- The texts differ only in literals and in the values of credentials. -/
def Alike (s t : Sql) : Prop := withoutSecrets s = withoutSecrets t

structure Plain (sql : Sql) : Prop where
  erasable : Erasable (.plain .text) sql
  password : Maskable .password (withoutLiterals (.plain .text) sql)
  token : Maskable .token (withoutValues .password (withoutLiterals (.plain .text) sql))
  secret : Maskable .secret
    (withoutValues .token (withoutValues .password (withoutLiterals (.plain .text) sql)))
  /-- No character lies across the byte at which the text is cut. -/
  boundary : 512 < byteLength (withoutSecrets sql) →
    ∃ front back, withoutSecrets sql = front ++ back ∧ byteLength front = 512

theorem cutLong_length {s out : Sql} (done : cutLong s = some out) : byteLength out ≤ 515 := by
  unfold cutLong at done
  split_ifs at done with long
  · obtain ⟨front, cut, rfl⟩ := Option.map_eq_some_iff.mp done
    have bound := truncate_length cut
    have mark : '…'.utf8Size = 3 := by decide
    simp only [byteLength, map_append, sum_append, map_cons, map_nil,
      sum_cons, sum_nil, mark] at *
    omega
  · cases done
    omega

theorem redactSql_eq {sql : Sql} (plain : Plain sql) :
    redactSql sql = cutLong (withoutSecrets sql) := by
  have erased := erase_eq plain.erasable
  rw [redactSql, withoutSecrets]
  simp only [Scan.place] at erased
  simp only [foldl_cons, foldl_nil, erased, mask_eq plain.password,
    mask_eq plain.token, mask_eq plain.secret]

/-- Plain texts that are alike are logged as the same short text. -/
theorem redaction_blind (s t : Sql) (alike : Alike s t) (plain : Plain s) (other : Plain t) :
    ∃ out, redactSql s = some out ∧ redactSql t = some out ∧ byteLength out ≤ 515 := by
  rw [redactSql_eq plain, redactSql_eq other, ← alike]
  have returned : ∃ out, cutLong (withoutSecrets s) = some out := by
    unfold cutLong
    split_ifs with long
    · obtain ⟨front, back, whole, length⟩ := plain.boundary long
      exact ⟨front ++ ['…'], by rw [whole, truncate_append back length]; rfl⟩
    · exact ⟨_, rfl⟩
  obtain ⟨out, returned⟩ := returned
  exact ⟨out, returned, returned, cutLong_length returned⟩

theorem redaction_blind_literal :
    ∃ out, redactSql ['\'', 'a', '\''] = some out ∧ redactSql ['\'', 'b', 'c', '\''] = some out ∧
      byteLength out ≤ 515 :=
  redaction_blind _ _ (by unfold Alike; decide +kernel)
    ⟨by simp [Erasable], .absent (by decide +kernel), .absent (by decide +kernel),
      .absent (by decide +kernel), fun long => absurd long (by decide +kernel)⟩
    ⟨by simp [Erasable], .absent (by decide +kernel), .absent (by decide +kernel),
      .absent (by decide +kernel), fun long => absurd long (by decide +kernel)⟩

/-- A character across the byte 512 ends in a panic; a second credential, a value behind a
space and a quote written twice show in the log. -/
theorem redaction_sees :
    redactSql (List.replicate 511 'a' ++ ['é', 'b']) = none ∧
      Alike "token=abcd token=efgh".toList "token=abcd token=ijkl".toList ∧
      redactSql "token=abcd token=efgh".toList ≠ redactSql "token=abcd token=ijkl".toList ∧
      Alike "token = abcd".toList "token = efgh".toList ∧
      redactSql "token = abcd".toList ≠ redactSql "token = efgh".toList ∧
      Alike "'it''s'".toList "'its'".toList ∧
      redactSql "'it''s'".toList ≠ redactSql "'its'".toList := by
  unfold Alike
  decide +kernel

end OnlyJs.Bridge.DbPolicy.RedactSql
