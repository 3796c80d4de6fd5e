import OnlyJs.Bridge.DbPolicy.Leading
import OnlyJs.Bridge.Explain.Gate

/-!
# What a constant in front of a text changes

The words `EXPLAIN` and `FORMAT=JSON` in front of a text name no table and mention no tenant,
so the tenant guard sees in the text what it sees without them. Only the first keyword is
another.
-/

namespace OnlyJs.Bridge.Explain

open Bridge.DbPolicy List Bridge.Guard Lib.Text

section Tokens

def precede (words : List Word) (tokens : Tokens) : Tokens :=
  { tokens with out := words ++ tokens.out }

variable (words : List Word) (tokens : Tokens)

theorem precede_push (word : Word) :
    (precede words tokens).push word = precede words (tokens.push word) := by
  simp [precede, Tokens.push]

theorem precede_flush : (precede words tokens).flush = precede words tokens.flush := by
  by_cases empty : tokens.word.isEmpty = true
  · simp [Tokens.flush, precede, empty]
  · simp [Tokens.flush, precede, empty]

theorem precede_out : (precede words tokens).out = words ++ tokens.out := rfl

theorem precede_drop : (precede words tokens).drop = precede words tokens.drop := rfl

theorem precede_char (c : Char) :
    (precede words tokens).char c = precede words (tokens.char c) := by
  unfold Tokens.char
  split
  · rfl
  · exact precede_flush words tokens

theorem scan_tokens_precede (mode : TokenMode) (text : List Char) :
    scanTokens mode (precede words tokens) text = words ++ scanTokens mode tokens text := by
  fun_induction scanTokens mode tokens text <;>
    simp_all [scanTokens, precede_flush, precede_push, precede_drop, precede_char, precede_out]

end Tokens

def tableKeywords : List String :=
  ["FROM", "UPDATE", "JOIN", "INTO", "TRUNCATE", "ALTER", "DROP"]

def idle (word : Word) : Bool := !tableKeywords.contains (Guard.upper word)

theorem extract_idle (words : List Word) (quiet : words.all idle = true) (fuel : Nat)
    (out : List String) (rest : List Word) :
    extractFrom (words.length + fuel) out (words ++ rest) = extractFrom fuel out rest := by
  induction words with
  | nil => rw [length_nil, Nat.zero_add, nil_append]
  | cons word words ih =>
    obtain ⟨still, others⟩ := Bool.and_eq_true_iff.mp (all_cons.symm.trans quiet)
    simp only [idle, tableKeywords, contains_cons,
      Bool.not_eq_true', Bool.or_eq_false_iff, beq_eq_false_iff_ne] at still
    rw [length_cons, Nat.succ_add, cons_append]
    simp only [extractFrom, still]
    exact ih others

/-- A constant that the guard passes over: idle words, no literal and no comment, and a blank
at its end. -/
structure Passed (front : List Char) : Prop where
  tokens : ∃ words : List Word, words.all idle = true ∧
    ∀ rest, scanTokens .plain .start (front ++ rest) = scanTokens .plain ⟨[], words⟩ rest
  stripped : ∀ rest, stripLiterals (front ++ rest) = front ++ stripLiterals rest
  ends : ∃ body, front = body ++ [' '] ∧ ¬ tenantColumn <:+: body.map Char.toLower

section Passed

variable {front : List Char} (passed : Passed front)

include passed

theorem extract_tables_passed (sql : List Char) :
    extractTables (front ++ sql) = extractTables sql := by
  obtain ⟨words, quiet, reads⟩ := passed.tokens
  have begun : (⟨[], words⟩ : Tokens) = precede words .start := by
    simp [precede, Tokens.start]
  have cut : Guard.tokens (front ++ sql) = words ++ Guard.tokens sql := by
    rw [Guard.tokens, reads, begun, scan_tokens_precede]
    rfl
  rw [extractTables, cut, length_append, extract_idle words quiet]
  rfl

omit passed in
theorem infix_blank {needle : List Char} (solid : ' ' ∉ needle) (before after : List Char) :
    needle <:+: before ++ ' ' :: after ↔ needle <:+: before ∨ needle <:+: after := by
  constructor
  · rintro ⟨first, last, split⟩
    rw [append_assoc] at split
    rcases append_eq_append_iff.mp split with ⟨tail, rfl, rest⟩ | ⟨tail, rfl, rest⟩
    · rcases append_eq_append_iff.mp rest with ⟨more, rfl, _⟩ | ⟨more, rfl, behind⟩
      · exact .inl ⟨first, more, by simp⟩
      · cases more with
        | nil => exact .inl ⟨first, [], by simp⟩
        | cons c more =>
          cases behind
          exact absurd (by simp) solid
    · cases tail with
      | nil =>
        rw [nil_append] at rest
        cases needle with
        | nil => exact .inl nil_infix
        | cons c needle =>
          cases rest
          exact absurd mem_cons_self solid
      | cons c tail =>
        cases rest
        exact .inr ⟨tail, last, by simp⟩
  · rintro (⟨first, last, rfl⟩ | ⟨first, last, rfl⟩)
    · exact ⟨first, last ++ ' ' :: after, by simp⟩
    · exact ⟨before ++ ' ' :: first, last, by simp⟩

theorem mentions_passed (sql : List Char) :
    mentionsTenant (front ++ sql) = mentionsTenant sql := by
  obtain ⟨body, rfl, absent⟩ := passed.ends
  have lower : (stripLiterals (body ++ [' '] ++ sql)).map Char.toLower =
      body.map Char.toLower ++ ' ' :: (stripLiterals sql).map Char.toLower := by
    rw [passed.stripped, map_append, map_append, append_assoc]
    rfl
  have solid : ' ' ∉ tenantColumn := by decide
  have found := infix_blank solid (body.map Char.toLower)
    ((stripLiterals sql).map Char.toLower)
  unfold mentionsTenant
  rw [lower, decide_eq_decide, found]
  exact or_iff_right absent

theorem check_scope_passed (context : TenantContext) (sql : List Char) (params : List Value) :
    context.checkScope (front ++ sql) params = context.checkScope sql params := by
  have same : context.scopedTables (front ++ sql) = context.scopedTables sql := by
    simp only [TenantContext.scopedTables, TenantContext.registered, extract_tables_passed passed]
  simp only [TenantContext.checkScope, same, mentions_passed passed]

end Passed

theorem blank_passed : Passed [' '] where
  tokens := ⟨[], rfl, fun _ => rfl⟩
  stripped _ := rfl
  ends := ⟨[], rfl, by decide⟩

theorem explain_passed : Passed "EXPLAIN ".toList where
  tokens := ⟨["EXPLAIN".toList], by decide, fun _ => rfl⟩
  stripped _ := rfl
  ends := ⟨"EXPLAIN".toList, rfl, by decide⟩

theorem format_passed : Passed "EXPLAIN FORMAT=JSON ".toList where
  tokens := ⟨["EXPLAIN".toList, "FORMAT".toList, "JSON".toList], by decide, fun _ => rfl⟩
  stripped _ := rfl
  ends := ⟨"EXPLAIN FORMAT=JSON".toList, rfl, by decide⟩

end OnlyJs.Bridge.Explain
