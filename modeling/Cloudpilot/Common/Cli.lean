import Mathlib.Data.List.TakeWhile
import Mathlib.Tactic.Common

/-! # Words on the command line

The completion of a file name escapes blanks and backslashes, and `ParseLine` takes a line apart
into words. A word that does not begin with a quote comes back as it was.
-/
namespace Cloudpilot.Common.Cli

open List

abbrev Text := List Char

def backslash : Char := Char.ofNat 92

def doubleQuote : Char := Char.ofNat 34

def isBlank (token : Char) : Bool := token = ' ' ∨ token = Char.ofNat 9

/-- The characters in front of the terminator. -/
def cString (text : Text) : Text := text.takeWhile (· ≠ Char.ofNat 0)

def escapeToken (token : Char) : Text :=
  if isBlank token ∨ token = backslash then [backslash, token] else [token]

def escape (text : Text) : Text := (cString text).flatMap escapeToken

inductive Mode where
  | blank | word | escape
deriving DecidableEq

structure Parser where
  mode : Mode
  isQuote : Bool
  words : List Text
  currentWord : Text

namespace Parser

def start : Parser := ⟨.blank, false, [], []⟩

/-- The body of the loop of `ParseLine`. -/
def step (p : Parser) (token : Char) : Parser :=
  match p.mode with
  | .blank =>
    if isBlank token then p
    else if token = backslash then { p with mode := .escape, isQuote := false, currentWord := [] }
    else if token = doubleQuote then { p with mode := .word, isQuote := true, currentWord := [] }
    else { p with mode := .word, isQuote := false, currentWord := [token] }
  | .word =>
    if isBlank token ∧ ¬ p.isQuote ∨ token = doubleQuote ∧ p.isQuote then
      { p with mode := .blank, words := p.words ++ [p.currentWord] }
    else if token = backslash then { p with mode := .escape }
    else { p with currentWord := p.currentWord ++ [token] }
  | .escape => { p with mode := .word, currentWord := p.currentWord ++ [token] }

/-- The words, and whether a quote is open. -/
def finish (p : Parser) : List Text × Bool :=
  if p.mode = .blank then (p.words, false) else (p.words ++ [p.currentWord], p.isQuote)

end Parser

def parseLine (line : Text) : List Text × Bool := ((cString line).foldl Parser.step .start).finish

/-- The escaped words with single spaces between them. -/
def commandLine (words : List Text) : Text := [' '].intercalate (words.map escape)

variable {p : Parser} {word : Text} {words : List Text}

theorem escapeToken_eq (token : Char) :
    escapeToken token = [backslash, token] ∧ token ≠ doubleQuote ∨
      escapeToken token = [token] ∧ isBlank token = false ∧ token ≠ backslash := by
  unfold escapeToken
  split
  · rename_i hspecial
    refine .inl ⟨rfl, ?_⟩
    rintro rfl
    exact absurd hspecial (by decide)
  · grind

theorem foldl_escape (hmode : p.mode = .word) (hquote : p.isQuote = false) (word : Text) :
    (word.flatMap escapeToken).foldl Parser.step p =
      { p with currentWord := p.currentWord ++ word } := by
  induction word generalizing p with
  | nil => rw [append_nil, flatMap_nil, foldl_nil]
  | cons token word ih =>
    have hstep : (escapeToken token).foldl Parser.step p =
        { p with currentWord := p.currentWord ++ [token] } := by
      obtain ⟨heq, -⟩ | ⟨heq, hblank, hne⟩ := escapeToken_eq token
      · have hback : isBlank backslash = false := rfl
        simp [heq, Parser.step, hmode, hquote, hback]
      · simp [heq, Parser.step, hmode, hquote, hblank, hne]
    rw [flatMap_cons, foldl_append, hstep]
    simpa using @ih { p with currentWord := p.currentWord ++ [token] } hmode hquote

theorem foldl_word (hmode : p.mode = .blank) (hword : word ≠ [])
    (hhead : word.head? ≠ some doubleQuote) :
    (word.flatMap escapeToken).foldl Parser.step p = ⟨.word, false, p.words, word⟩ := by
  cases word with
  | nil => exact absurd rfl hword
  | cons token word =>
    have hstep : (escapeToken token).foldl Parser.step p = ⟨.word, false, p.words, [token]⟩ := by
      have hne : token ≠ doubleQuote := fun heq => hhead (congrArg some heq)
      obtain ⟨heq, -⟩ | ⟨heq, hblank, hback⟩ := escapeToken_eq token
      · have hback : isBlank backslash = false := rfl
        simp [heq, Parser.step, hmode, hback]
      · simp [heq, Parser.step, hmode, hblank, hback, hne]
    rw [flatMap_cons, foldl_append, hstep, foldl_escape rfl rfl]
    rfl

theorem words_prefix (line : Text) (p : Parser) :
    p.words <+: (line.foldl Parser.step p).finish.1 := by
  induction line generalizing p with
  | nil => grind [foldl_nil, Parser.finish]
  | cons token line ih =>
    refine List.IsPrefix.trans ?_ (ih (p.step token))
    unfold Parser.step
    split
    · grind
    · grind
    · simp

theorem head_kept (line : Text) {first : Char} {more : Text} (hmode : p.mode ≠ .blank)
    (hword : p.currentWord = first :: more) :
    ∃ more', p.words ++ [first :: more'] <+: (line.foldl Parser.step p).finish.1 := by
  induction line generalizing p more with
  | nil =>
    refine ⟨more, ?_⟩
    simp only [foldl_nil, Parser.finish, if_neg hmode, hword]
    exact prefix_refl _
  | cons token line ih =>
    have hstep : (p.step token).words = p.words ++ [first :: more] ∨ (p.step token).mode ≠ .blank ∧
        (p.step token).words = p.words ∧ ∃ more', (p.step token).currentWord = first :: more' := by
      unfold Parser.step
      cases hp : p.mode with
      | blank => exact absurd hp hmode
      | escape => exact .inr ⟨nofun, rfl, more ++ [token], by rw [hword, cons_append]⟩
      | word => grind
    obtain hended | ⟨hmode', hwords, more', hword'⟩ := hstep
    · exact ⟨more, hended ▸ words_prefix line _⟩
    · grind

theorem quote_lost (acc : List Text) (word rest : Text) (hrest : rest.head? ≠ some doubleQuote)
    (hback : rest.head? ≠ some backslash) :
    ((word.flatMap escapeToken ++ rest).foldl Parser.step ⟨.word, true, acc, []⟩).finish.2 = true ∨
      ∃ other : Text, other.head? ≠ some doubleQuote ∧ acc ++ [other] <+:
        ((word.flatMap escapeToken ++ rest).foldl Parser.step ⟨.word, true, acc, []⟩).finish.1 := by
  have hread : ∀ (token : Char) (line : Text), token ≠ doubleQuote →
      ∃ other : Text, other.head? ≠ some doubleQuote ∧ acc ++ [other] <+:
        (line.foldl Parser.step ⟨.word, true, acc, [token]⟩).finish.1 := by
    intro token line hne
    obtain ⟨more, hmore⟩ := head_kept (p := ⟨.word, true, acc, [token]⟩) line nofun rfl
    exact ⟨token :: more, fun heq => hne (Option.some.inj heq), hmore⟩
  cases word with
  | nil =>
    cases rest with
    | nil => exact .inl rfl
    | cons token rest =>
      have hne : token ≠ doubleQuote := fun heq => hrest (congrArg some heq)
      have hne' : token ≠ backslash := fun heq => hback (congrArg some heq)
      have hstep : Parser.step ⟨.word, true, acc, []⟩ token = ⟨.word, true, acc, [token]⟩ := by
        simp [Parser.step, hne, hne']
      rw [flatMap_nil, nil_append, foldl_cons, hstep]
      exact .inr (hread token rest hne)
  | cons token word =>
    right
    rw [flatMap_cons, append_assoc, foldl_append]
    obtain ⟨heq, hne⟩ | ⟨heq, -, hne'⟩ := escapeToken_eq token
    · have hstep : [backslash, token].foldl Parser.step ⟨.word, true, acc, []⟩ =
          ⟨.word, true, acc, [token]⟩ := by rfl
      rw [heq, hstep]
      exact hread token _ hne
    · by_cases hquote : token = doubleQuote
      · have hstep : [token].foldl Parser.step ⟨.word, true, acc, []⟩ =
            ⟨.blank, true, acc ++ [[]], []⟩ := by
          simp [Parser.step, hquote]
        rw [heq, hstep]
        exact ⟨[], nofun, words_prefix _ ⟨.blank, true, acc ++ [[]], []⟩⟩
      · have hstep : [token].foldl Parser.step ⟨.word, true, acc, []⟩ =
            ⟨.word, true, acc, [token]⟩ := by
          simp [Parser.step, hquote, hne']
        rw [heq, hstep]
        exact hread token _ hquote

theorem commandLine_cons (word : Text) (words : List Text) :
    commandLine (word :: words) =
      escape word ++ if words = [] then [] else ' ' :: commandLine words := by
  split_ifs with hlast
  · simp [commandLine, hlast]
  · simp [commandLine, intercalate_cons_of_ne_nil, hlast]

theorem cString_eq (hword : Char.ofNat 0 ∉ word) : cString word = word :=
  List.takeWhile_eq_self_iff.mpr fun token htoken => by
    simpa using fun heq : token = Char.ofNat 0 => hword (heq ▸ htoken)

theorem escape_eq (hword : Char.ofNat 0 ∉ word) : escape word = word.flatMap escapeToken :=
  congrArg (List.flatMap escapeToken) (cString_eq hword)

theorem nul_notMem_commandLine (hwords : ∀ word ∈ words, Char.ofNat 0 ∉ word) :
    Char.ofNat 0 ∉ commandLine words := by
  induction words with
  | nil => exact nofun
  | cons word words ih =>
    have hword := hwords word mem_cons_self
    have hescape : Char.ofNat 0 ∉ escape word := by
      rw [escape_eq hword, mem_flatMap]
      rintro ⟨token, htoken, hmem⟩
      have hne : token ≠ Char.ofNat 0 := fun heq => hword (heq ▸ htoken)
      have hback : ¬ Char.ofNat 0 = backslash := by decide
      obtain ⟨heq, -⟩ | ⟨heq, -⟩ := escapeToken_eq token <;> simp [heq, hback, hne.symm] at hmem
    rw [commandLine_cons, mem_append, not_or]
    refine ⟨hescape, ?_⟩
    split_ifs
    · simp
    · grind

theorem foldl_commandLine_iff (hwords : ∀ word ∈ words, word ≠ [] ∧ Char.ofNat 0 ∉ word)
    (hmode : p.mode = .blank) :
    ((commandLine words).foldl Parser.step p).finish = (p.words ++ words, false) ↔
      ∀ word ∈ words, word.head? ≠ some doubleQuote := by
  induction words generalizing p with
  | nil => simp [commandLine, Parser.finish, hmode]
  | cons word words ih =>
    obtain ⟨⟨hword, hnul⟩, hwords⟩ := forall_mem_cons.mp hwords
    rw [commandLine_cons, escape_eq hnul, forall_mem_cons]
    by_cases hhead : word.head? = some doubleQuote
    · refine iff_of_false (fun hread => ?_) fun hall => hall.1 hhead
      obtain ⟨rest, rfl⟩ : ∃ rest, word = doubleQuote :: rest := List.head?_eq_some_iff.mp hhead
      have hstep : Parser.step p doubleQuote = ⟨.word, true, p.words, []⟩ := by
        have hblank : isBlank doubleQuote = false := rfl
        have hback : ¬ doubleQuote = backslash := by decide
        simp [Parser.step, hmode, hblank, hback]
      have htoken : escapeToken doubleQuote = [doubleQuote] := rfl
      rw [flatMap_cons, htoken, singleton_append, cons_append, foldl_cons,
        hstep] at hread
      have hlost := quote_lost p.words rest (if words = [] then [] else ' ' :: commandLine words)
        (by split_ifs <;> simp [doubleQuote]) (by split_ifs <;> simp [backslash])
      obtain hopen | ⟨other, hother, hpre⟩ := hlost
      · grind
      · grind [prefix_append_right_inj, cons_prefix_cons]
    · rw [foldl_append, foldl_word hmode hword hhead, and_iff_right hhead]
      split_ifs with hlast
      · simp [hlast, Parser.finish]
      · have hstep : Parser.step ⟨.word, false, p.words, word⟩ ' ' =
            ⟨.blank, false, p.words ++ [word], word⟩ := rfl
        rw [foldl_cons, hstep, ← ih (p := ⟨.blank, false, p.words ++ [word], word⟩) hwords rfl,
          append_assoc, singleton_append]

/-- The line is read back exactly when no word begins with a quote. -/
theorem parseLine_commandLine_iff (words : List Text)
    (hwords : ∀ word ∈ words, word ≠ [] ∧ Char.ofNat 0 ∉ word) :
    parseLine (commandLine words) = (words, false) ↔
      ∀ word ∈ words, word.head? ≠ some doubleQuote := by
  have hline := nul_notMem_commandLine fun word hword => (hwords word hword).2
  rw [parseLine, cString_eq hline]
  exact foldl_commandLine_iff hwords rfl

theorem parseLine_commandLine_blanks :
    parseLine (commandLine [['a', ' ', doubleQuote], [backslash]]) =
      ([['a', ' ', doubleQuote], [backslash]], false) :=
  (parseLine_commandLine_iff [['a', ' ', doubleQuote], [backslash]] (by decide)).mpr (by decide)

theorem not_parseLine_commandLine_quote : ¬ ∀ words : List Text,
    (∀ word ∈ words, word ≠ [] ∧ Char.ofNat 0 ∉ word) →
      parseLine (commandLine words) = (words, false) := by
  intro hread
  exact absurd (hread [[doubleQuote, 'a', doubleQuote]] (by decide)) (by decide)

end Cloudpilot.Common.Cli
