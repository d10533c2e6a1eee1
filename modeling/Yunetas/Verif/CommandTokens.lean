import Yunetas.Gobj.CommandParser

/-!
# Tokens of a command line

A line is cut into tokens at its blanks and quotes: words, texts between quotes, and keys with a value.
The readers of the command parser find the same tokens, whatever the blanks between them, and where the
line ends only the one blank that ends a token without quotes goes unnoticed.
-/

namespace Yunetas.Gobj

open List Bool

open Json

/-- A token of a command line. -/
inductive LineToken where
  | word (text : List Char)
  | quoted (quote : Char) (text : List Char)
  | pair (key value : List Char)
  | quotedPair (key : List Char) (quote : Char) (value : List Char)
  | openPair (key text : List Char)
  deriving DecidableEq

/-- A key and a value. -/
def LineToken.isPair : LineToken → Bool
  | word _ => false
  | quoted _ _ => false
  | _ => true

/-- A character of a word. -/
def isWord (char : Char) : Bool := !isBlank char && char ≠ '='

/-- The token with the value that a text starts with, and the text behind it. -/
def valueToken (key : List Char) : List Char → LineToken × List Char
  | [] => (.pair key [], [])
  | first :: rest =>
    if isQuote first then
      if rest.contains first then
        (.quotedPair key first (rest.takeWhile (· ≠ first)), (rest.dropWhile (· ≠ first)).tail)
      else (.openPair key (first :: rest), [])
    else
      (.pair key ((first :: rest).takeWhile (!isBlank ·)), (first :: rest).dropWhile (!isBlank ·))

/-- The token that a text without a blank before it starts with, and the text behind it. -/
def lineToken (char : Char) (rest : List Char) : LineToken × List Char :=
  if isQuote char && rest.contains char then
    (.quoted char (rest.takeWhile (· ≠ char)), (rest.dropWhile (· ≠ char)).tail)
  else
    match (char :: rest).dropWhile isWord with
    | '=' :: value => valueToken ((char :: rest).takeWhile isWord) value
    | others => (.word ((char :: rest).takeWhile isWord), others)

theorem lineToken_shorter (char : Char) (rest : List Char) (here : isBlank char = false) :
    (lineToken char rest).2.length ≤ rest.length := by
  have valueShorter : ∀ key text, (valueToken key text).2.length ≤ text.length := by
    intro key text
    cases text with
    | nil => exact Nat.le_refl _
    | cons first others =>
      have quoted := (dropWhile_suffix (fun char => decide (char ≠ first)) (l := others)).length_le
      have bare := (dropWhile_suffix (!isBlank ·) (l := first :: others)).length_le
      simp only [valueToken]
      split
      · split
        · rw [length_tail, length_cons]
          omega
        · exact Nat.zero_le _
      · exact bare
  have quoted := (dropWhile_suffix (fun other => decide (other ≠ char)) (l := rest)).length_le
  unfold lineToken
  split
  · rw [length_tail]
    omega
  · by_cases equal : char = '='
    · have ends : (char :: rest).dropWhile isWord = '=' :: rest := by
        rw [equal]
        rfl
      rw [ends]
      exact valueShorter _ _
    · have word : isWord char = true := by
        unfold isWord
        simp [here, equal]
      have shorter := (dropWhile_suffix isWord (l := rest)).length_le
      rw [dropWhile_cons_of_pos word]
      split
      · rename_i value ends
        rw [ends, length_cons] at shorter
        exact Nat.le_trans (valueShorter _ _) (by omega)
      · exact shorter

/-- The tokens of a line, and the blanks behind the last. -/
def lineTokens (line : List Char) : List LineToken × List Char :=
  match _start : line.dropWhile isBlank with
  | [] => ([], line)
  | char :: rest =>
    let others := lineTokens (lineToken char rest).2
    ((lineToken char rest).1 :: others.1, others.2)
termination_by line.length
decreasing_by
  have start : line.dropWhile isBlank = char :: rest := by assumption
  have here := List.head?_dropWhile_not isBlank line
  rw [start] at here
  have shorter := lineToken_shorter char rest (by simpa using here)
  have skipped := (List.dropWhile_suffix isBlank (l := line)).length_le
  rw [start, List.length_cons] at skipped
  omega

/-- The one blank that ends a token without quotes belongs to it. -/
def slack : Option LineToken → Nat
  | some (.word _) => 1
  | some (.pair _ _) => 1
  | _ => 0

/-- Nothing but such a blank is behind the last token of a line. -/
def endsClean (line : List Char) : Bool :=
  (lineTokens line).2.length ≤ slack (lineTokens line).1.getLast?

/-- The tokens before a cursor. -/
def cursorTokens : Option (List Char) → List LineToken
  | none => []
  | some line => (lineTokens line).1

/-- A cursor whose line ends clean. -/
def cursorClean : Option (List Char) → Bool
  | none => true
  | some line => endsClean line

@[simp] theorem cursorTokens_some (line : List Char) :
    cursorTokens (some line) = (lineTokens line).1 := rfl

@[simp] theorem cursorClean_some (line : List Char) : cursorClean (some line) = endsClean line := rfl

/-- The cursor behind a token. -/
def nextCursor (token : LineToken × List Char) : Option (List Char) :=
  match token.1 with
  | .word _ => behind token.2
  | .pair _ _ => behind token.2
  | .openPair _ _ => none
  | _ => some token.2

theorem while_agree {narrow wide : Char → Bool} {text : List Char}
    (weaker : ∀ char, narrow char = true → wide char = true)
    (stops : ∀ char rest, text.dropWhile narrow = char :: rest → wide char = false) :
    text.takeWhile wide = text.takeWhile narrow ∧ text.dropWhile wide = text.dropWhile narrow := by
  induction text with
  | nil => exact ⟨rfl, rfl⟩
  | cons char rest ih =>
    cases inside : narrow char with
    | true =>
      rw [takeWhile_cons_of_pos inside, dropWhile_cons_of_pos inside,
        takeWhile_cons_of_pos (weaker char inside),
        dropWhile_cons_of_pos (weaker char inside)]
      have later := ih fun other more ends => stops other more (by
        rw [dropWhile_cons_of_pos inside]
        exact ends)
      exact ⟨congrArg _ later.1, later.2⟩
    | false =>
      have no : ¬ narrow char = true := by rw [inside]; decide
      have out := stops char rest (dropWhile_cons_of_neg no)
      have no' : ¬ wide char = true := by rw [out]; decide
      rw [takeWhile_cons_of_neg no, dropWhile_cons_of_neg no,
        takeWhile_cons_of_neg no', dropWhile_cons_of_neg no']
      exact ⟨rfl, rfl⟩

theorem word_before_equal {text value : List Char} (ends : text.dropWhile isWord = '=' :: value) :
    text.takeWhile (fun char => decide (char ≠ '=')) = text.takeWhile isWord ∧
      text.dropWhile (fun char => decide (char ≠ '=')) = '=' :: value := by
  have agree := @while_agree isWord (fun char => decide (char ≠ '=')) text
    (fun char word => (and_eq_true _ _ ▸ word : _ ∧ _).2)
    (fun char rest start => by
      rw [ends] at start
      cases start
      rfl)
  exact ⟨agree.1, agree.2.trans ends⟩

theorem word_before_blank {text : List Char} (ends : ∀ value, text.dropWhile isWord ≠ '=' :: value) :
    text.takeWhile (!isBlank ·) = text.takeWhile isWord ∧
      text.dropWhile (!isBlank ·) = text.dropWhile isWord := by
  refine while_agree (fun char word => (and_eq_true _ _ ▸ word : _ ∧ _).1) ?_
  intro char rest start
  have stops := head?_dropWhile_not isWord text
  rw [start] at stops
  have notWord : isWord char = false := by simpa using stops
  have other : char ≠ '=' := fun equal => ends rest (equal ▸ start)
  unfold isWord at notWord
  simpa [other] using notWord

theorem behind_closed {quote : Char} {rest : List Char} (closed : rest.contains quote = true) :
    behind (rest.dropWhile fun char => decide (char ≠ quote)) =
      some (rest.dropWhile fun char => decide (char ≠ quote)).tail := by
  cases ends : rest.dropWhile fun char => decide (char ≠ quote) with
  | cons char more => rfl
  | nil =>
    have all := dropWhile_eq_nil_iff.1 ends quote (contains_iff_mem.1 closed)
    exact absurd all (by simp)

theorem lineTokens_nil {line : List Char} (start : line.dropWhile isBlank = []) :
    lineTokens line = ([], line) := by
  rw [lineTokens]
  split
  · rfl
  · rename_i other
    rw [start] at other
    cases other

variable {line rest : List Char} {char : Char} {cursor : Option (List Char)}

theorem lineTokens_cons (start : line.dropWhile isBlank = char :: rest) :
    lineTokens line = ((lineToken char rest).1 :: (lineTokens (lineToken char rest).2).1,
      (lineTokens (lineToken char rest).2).2) := by
  rw [lineTokens]
  split
  · rename_i other
    rw [start] at other
    cases other
  · rename_i char' rest' other
    rw [start] at other
    cases other
    rfl

theorem getLast?_behind (token : LineToken) {tokens : List LineToken} (some' : tokens ≠ []) :
    (token :: tokens).getLast? = tokens.getLast? := by
  rw [getLast?_cons]
  cases last : tokens.getLast? with
  | none => exact absurd (getLast?_eq_none_iff.1 last) some'
  | some other => rfl

theorem bare_step {token : LineToken} (bare : slack (some token) = 1) {text : List Char}
    (ends : ∀ char rest, text = char :: rest → isBlank char = true) :
    cursorTokens (behind text) = (lineTokens text).1 ∧
      cursorClean (behind text) = decide ((lineTokens text).2.length ≤
        slack (token :: (lineTokens text).1).getLast?) := by
  cases text with
  | nil =>
    rw [lineTokens_nil rfl]
    exact ⟨rfl, (decide_eq_true (Nat.zero_le _)).symm⟩
  | cons char rest =>
    have blank := ends char rest rfl
    have skip : (char :: rest).dropWhile isBlank = rest.dropWhile isBlank :=
      dropWhile_cons_of_pos blank
    unfold behind cursorTokens cursorClean endsClean
    dsimp only
    cases start : rest.dropWhile isBlank with
    | nil =>
      rw [lineTokens_nil start, lineTokens_nil (skip.trans start)]
      have last : [token].getLast? = some token := rfl
      rw [last, bare]
      refine ⟨rfl, decide_eq_decide.2 ?_⟩
      have none' : slack ([] : List LineToken).getLast? = 0 := rfl
      rw [none']
      dsimp only
      rw [length_cons]
      omega
    | cons first more =>
      rw [lineTokens_cons start, lineTokens_cons (skip.trans start),
        getLast?_behind token (cons_ne_nil _ _)]
      exact ⟨rfl, rfl⟩

theorem quoted_step {token : LineToken} (quoted : slack (some token) = 0) (text : List Char) :
    endsClean text = decide ((lineTokens text).2.length ≤
      slack (token :: (lineTokens text).1).getLast?) := by
  unfold endsClean
  cases tokens : (lineTokens text).1 with
  | nil =>
    have last : [token].getLast? = some token := rfl
    rw [last, quoted]
    rfl
  | cons first more => rw [getLast?_behind token (cons_ne_nil _ _)]

theorem blank_of_dropWhile {text rest : List Char}
    (start : text.dropWhile (!isBlank ·) = char :: rest) : isBlank char = true := by
  have stops := head?_dropWhile_not (!isBlank ·) text
  rw [start] at stops
  simpa using stops

theorem lineToken_bare (char : Char) (rest : List Char)
    (bare : slack (some (lineToken char rest).1) = 1) (first : Char) (more : List Char)
    (ends : (lineToken char rest).2 = first :: more) : isBlank first = true := by
  unfold lineToken at bare ends
  split at bare
  · exact absurd bare (by simp [slack])
  · rename_i closed
    rw [if_neg closed] at ends
    split at bare
    · rename_i value start
      rw [start] at ends
      cases value with
      | nil => cases ends
      | cons head others =>
        simp only [valueToken] at bare ends
        split at bare
        · split at bare <;> exact absurd bare (by simp [slack])
        · rename_i quote
          rw [if_neg quote] at ends
          exact blank_of_dropWhile ends
    · rename_i others
      have whole := (word_before_blank others).2
      have ends' : (char :: rest).dropWhile isWord = first :: more := by
        split at ends
        · rename_i value start
          exact absurd start (others value)
        · exact ends
      exact blank_of_dropWhile (whole.trans ends')

theorem lineToken_open {char : Char} {rest key text : List Char}
    (token : (lineToken char rest).1 = .openPair key text) : (lineToken char rest).2 = [] := by
  unfold lineToken at token ⊢
  split at token
  · cases token
  · rename_i closed
    rw [if_neg closed]
    split at token
    · rename_i value start
      cases value with
      | nil => rfl
      | cons head others =>
        simp only [valueToken] at token ⊢
        split at token
        · rename_i quote
          rw [if_pos quote]
          split at token
          · cases token
          · rename_i unclosed
            rw [if_neg unclosed]
        · cases token
    · cases token

theorem line_step (start : line.dropWhile isBlank = char :: rest) :
    (lineTokens line).1 =
        (lineToken char rest).1 :: cursorTokens (nextCursor (lineToken char rest)) ∧
      endsClean line = cursorClean (nextCursor (lineToken char rest)) := by
  have bare := lineToken_bare char rest
  have whole := @lineToken_open char rest
  unfold endsClean
  rw [lineTokens_cons start]
  unfold nextCursor
  cases token : (lineToken char rest).1 with
  | word text =>
    rw [token] at bare
    have step := @bare_step (.word text) rfl _ (bare rfl)
    exact ⟨by rw [step.1], step.2.symm⟩
  | pair key value =>
    rw [token] at bare
    have step := @bare_step (.pair key value) rfl _ (bare rfl)
    exact ⟨by rw [step.1], step.2.symm⟩
  | quoted quote text => exact ⟨rfl, (quoted_step rfl _).symm⟩
  | quotedPair key quote value => exact ⟨rfl, (quoted_step rfl _).symm⟩
  | openPair key text =>
    rw [whole token, lineTokens_nil rfl]
    exact ⟨rfl, rfl⟩

/-- The text of a token without a key. -/
def tokenText : LineToken → Option (List Char)
  | .word text => some text
  | .quoted _ text => some text
  | _ => none

/-- The key and the value of a token. -/
def tokenPair : LineToken → Option (List Char × List Char)
  | .pair key value => some (leftJustify key, value)
  | .quotedPair key _ value => some (leftJustify key, value)
  | _ => none

theorem equal_before_blank {text value : List Char} (ends : text.dropWhile isWord = '=' :: value) :
    '=' ∈ text.takeWhile (!isBlank ·) := by
  have split := takeWhile_append_dropWhile (p := isWord) (l := text)
  rw [ends] at split
  rw [← split, takeWhile_append_of_pos]
  · refine mem_append_right _ ?_
    rw [takeWhile_cons_of_pos (by decide)]
    exact mem_cons_self
  · intro char among
    have word := mem_takeWhile_imp among
    exact (and_eq_true _ _ ▸ word : _ ∧ _).1

theorem getParameter_token (start : line.dropWhile isBlank = char :: rest) :
    (∀ text, tokenText (lineToken char rest).1 = some text →
      getParameter (some line) = (some text, nextCursor (lineToken char rest))) ∧
    (tokenText (lineToken char rest).1 = none →
      ∃ text, (getParameter (some line)).1 = some text ∧ text.contains '=' = true) := by
  simp only [getParameter, start]
  unfold lineToken
  by_cases closed : (isQuote char && rest.contains char) = true
  · rw [if_pos closed, if_pos closed, behind_closed ((and_eq_true _ _ ▸ closed : _ ∧ _).2)]
    refine ⟨fun text same => ?_, fun same => by cases same⟩
    cases same
    rfl
  · rw [if_neg closed, if_neg closed]
    split
    · rename_i value ends
      -- a token with a key has an equal sign
      have keyed : tokenText (valueToken ((char :: rest).takeWhile isWord) value).1 = none := by
        cases value with
        | nil => rfl
        | cons first others =>
          simp only [valueToken]
          split
          · split <;> rfl
          · rfl
      refine ⟨fun text same => absurd (keyed.symm.trans same) (by simp), fun _ => ⟨_, rfl, ?_⟩⟩
      exact contains_iff_mem.2 (equal_before_blank ends)
    · rename_i others
      have agree := word_before_blank others
      refine ⟨fun text same => ?_, fun same => by cases same⟩
      cases same
      rw [agree.1, agree.2]
      rfl

theorem getKeyValueParameter_token (start : line.dropWhile isBlank = char :: rest)
    (keyed : (lineToken char rest).1.isPair = true) :
    (getKeyValueParameter (some line)).value = (tokenPair (lineToken char rest).1).map Prod.snd ∧
    (∀ pair, tokenPair (lineToken char rest).1 = some pair →
      (getKeyValueParameter (some line)).key = some pair.1) ∧
    (getKeyValueParameter (some line)).savePtr = nextCursor (lineToken char rest) := by
  unfold lineToken at keyed ⊢
  split at keyed
  · cases keyed
  · rename_i closed
    rw [if_neg closed]
    split at keyed
    · rename_i value ends
      have agree := word_before_equal ends
      simp only [getKeyValueParameter, start, agree.2, agree.1]
      cases value with
      | nil => exact ⟨rfl, fun pair same => (by cases same; rfl), rfl⟩
      | cons first others =>
        simp only [readValue, valueToken]
        by_cases quote : isQuote first = true
        · rw [if_pos quote, if_pos quote]
          by_cases closed' : others.contains first = true
          · rw [if_pos closed', if_pos closed', behind_closed closed']
            exact ⟨rfl, fun pair same => (by cases same; rfl), rfl⟩
          · rw [if_neg closed', if_neg closed']
            exact ⟨rfl, fun pair same => (by cases same), rfl⟩
        · rw [if_neg quote, if_neg quote]
          exact ⟨rfl, fun pair same => (by cases same; rfl), rfl⟩
    · cases keyed

theorem readKeyValues_some {key value : List Char}
    (value' : (getKeyValueParameter cursor).value = some value)
    (key' : (getKeyValueParameter cursor).key = some key) :
    readKeyValues cursor = ((key, value) :: (readKeyValues (getKeyValueParameter cursor).savePtr).1,
        (readKeyValues (getKeyValueParameter cursor).savePtr).2) := by
  rw [readKeyValues]
  split
  · rename_i none'
    rw [value'] at none'
    cases none'
  · rename_i other found
    rw [value'] at found
    cases found
    rw [key']
    rfl

theorem readKeyValues_none (none' : (getKeyValueParameter cursor).value = none) :
    readKeyValues cursor = ([], getKeyValueParameter cursor) := by
  rw [readKeyValues]
  split
  · rfl
  · rename_i found
    rw [none'] at found
    cases found

/-- Nothing is left before a cursor. -/
def ended : Option (List Char) → Bool
  | some (_ :: _) => false
  | _ => true

theorem cursor_nil (none' : cursorTokens cursor = []) :
    cursor = none ∨ ∃ line, cursor = some line ∧ line.dropWhile isBlank = [] := by
  cases cursor with
  | none => exact .inl rfl
  | some line =>
    cases start : line.dropWhile isBlank with
    | nil => exact .inr ⟨line, rfl, start⟩
    | cons char rest =>
      rw [cursorTokens_some, lineTokens_cons start] at none'
      cases none'

theorem cursor_cons {token : LineToken} {others : List LineToken}
    (before : cursorTokens cursor = token :: others) :
    ∃ line char rest, cursor = some line ∧ line.dropWhile isBlank = char :: rest ∧
      (lineToken char rest).1 = token ∧
      cursorTokens (nextCursor (lineToken char rest)) = others ∧
      cursorClean cursor = cursorClean (nextCursor (lineToken char rest)) := by
  cases cursor with
  | none => cases before
  | some line =>
    cases start : line.dropWhile isBlank with
    | nil =>
      rw [cursorTokens_some, lineTokens_nil start] at before
      cases before
    | cons char rest =>
      have step := line_step start
      rw [cursorTokens_some, step.1, List.cons.injEq] at before
      exact ⟨line, char, rest, rfl, start, before.1, before.2, step.2⟩

/-- A line of tokens with keys is read as these, and nothing is left when it ends clean. -/
theorem readKeyValues_tokens {tokens : List LineToken}
    (before : cursorTokens cursor = tokens) (keyed : ∀ token ∈ tokens, token.isPair = true) :
    (readKeyValues cursor).1 = tokens.filterMap tokenPair ∧
      ended (readKeyValues cursor).2.savePtr = cursorClean cursor := by
  induction tokens generalizing cursor with
  | nil =>
    rcases cursor_nil before with rfl | ⟨line, rfl, start⟩
    · rw [readKeyValues_none rfl]
      exact ⟨rfl, rfl⟩
    · have read : getKeyValueParameter (some line) = ⟨none, none, some line⟩ := by
        simp [getKeyValueParameter, start]
      rw [readKeyValues_none (by rw [read]), read, cursorClean_some]
      unfold endsClean
      rw [lineTokens_nil start]
      cases line with
      | nil => exact ⟨rfl, rfl⟩
      | cons char rest => exact ⟨rfl, rfl⟩
  | cons token others ih =>
    obtain ⟨line, char, rest, rfl, start, first, behind', clean⟩ := cursor_cons before
    have here := keyed token mem_cons_self
    have read := getKeyValueParameter_token start (first ▸ here)
    have later := ih behind' fun other among => keyed other (mem_cons_of_mem _ among)
    rw [clean]
    rw [first] at read
    cases pair : tokenPair token with
    | some pair' =>
      rw [pair] at read
      rw [readKeyValues_some read.1 (read.2.1 pair' rfl), read.2.2, filterMap_cons_some pair]
      exact ⟨congrArg _ later.1, later.2⟩
    | none =>
      -- only a quote that is not closed has no value, and it is the last token
      rw [pair] at read
      have last : nextCursor (lineToken char rest) = none := by
        unfold nextCursor
        rw [first]
        cases token with
        | openPair => rfl
        | word => cases here
        | quoted => cases here
        | pair => cases pair
        | quotedPair => cases pair
      have none' : others = [] := by
        rw [← behind', last]
        rfl
      rw [readKeyValues_none read.1, read.2.2, last, filterMap_cons_none pair, none']
      exact ⟨rfl, rfl⟩

theorem getParameter_respaced {cursor cursor' next : Option (List Char)}
    {param : Option (List Char)} (same : cursorTokens cursor' = cursorTokens cursor)
    (read : getParameter cursor = (param, next))
    (plain : ∀ text, param = some text → text.contains '=' = false) :
    ∃ next', getParameter cursor' = (param, next') ∧ cursorTokens next' = cursorTokens next ∧
      cursorClean next' = cursorClean cursor' := by
  have blanks : ∀ {cursor : Option (List Char)}, cursorTokens cursor = [] →
      getParameter cursor = (none, cursor) := by
    intro cursor none'
    rcases cursor_nil none' with rfl | ⟨line, rfl, start⟩
    · rfl
    · simp [getParameter, start]
  cases tokens : cursorTokens cursor with
  | nil =>
    rw [blanks tokens] at read
    obtain ⟨rfl, rfl⟩ := Prod.mk.inj read
    exact ⟨cursor', blanks (same.trans tokens), same, rfl⟩
  | cons token others =>
    obtain ⟨line, char, rest, rfl, start, first, behind', -⟩ := cursor_cons tokens
    obtain ⟨line', char', rest', rfl, start', first', behind'', clean⟩ :=
      cursor_cons (same.trans tokens)
    have here := getParameter_token start
    have there := getParameter_token start'
    rw [first] at here
    rw [first'] at there
    cases text : tokenText token with
    | none =>
      have ⟨text', found, keyed⟩ := here.2 text
      rw [read] at found
      rw [plain text' found] at keyed
      cases keyed
    | some text' =>
      rw [here.1 text' text] at read
      obtain ⟨rfl, rfl⟩ := Prod.mk.inj read
      exact ⟨_, there.1 text' text, behind''.trans behind'.symm, clean.symm⟩

section Blanks

variable {host : CommandHost} {command : CmdDesc} {schema : List SdataDesc} {kw : Fields}

theorem requiredPass_respaced {name : String} {cursor cursor' next : Option (List Char)}
    {rest : List SdataDesc} {kwCmd out : Fields}
    (same : cursorTokens cursor' = cursorTokens cursor)
    (passed : requiredPass host name kw schema cursor kwCmd = .ok (rest, next, out)) :
    ∃ next', requiredPass host name kw schema cursor' kwCmd = .ok (rest, next', out) ∧
      cursorTokens next' = cursorTokens next ∧ cursorClean next' = cursorClean cursor' := by
  induction schema generalizing cursor cursor' kwCmd with
  | nil =>
    rw [requiredPass] at passed ⊢
    cases passed
    exact ⟨cursor', rfl, same, rfl⟩
  | cons ip others ih =>
    rw [requiredPass] at passed ⊢
    cases hidden : ip.notaccess with
    | true =>
      rw [hidden, if_pos rfl] at passed
      rw [if_pos rfl]
      exact ih same passed
    | false =>
      rw [hidden, if_neg (by decide)] at passed
      rw [if_neg (by decide)]
      cases needed : ip.required with
      | false =>
        rw [needed, if_pos (by decide)] at passed
        rw [if_pos (by decide)]
        cases passed
        exact ⟨cursor', rfl, same, rfl⟩
      | true =>
        rw [needed, if_neg (by decide)] at passed
        rw [if_neg (by decide)]
        cases found : getParameter cursor with
        | mk param behind' =>
          simp only [found] at passed
          cases param with
          | none =>
            have ⟨next', found', tokens, clean⟩ :=
              getParameter_respaced same found (fun text same => by cases same)
            simp only [found'] at passed ⊢
            cases value : kwGetDictValue kw ip.name.toList with
            | none => simp [value, reduceCtorEq] at passed
            | some value' =>
              simp only [value] at passed
              rw [← clean]
              exact ih tokens passed
          | some text =>
            dsimp only at passed
            cases keyed : text.contains '=' with
            | true =>
              rw [keyed, if_pos rfl] at passed
              cases passed
            | false =>
              rw [keyed, if_neg (by decide)] at passed
              have ⟨next', found', tokens, clean⟩ :=
                getParameter_respaced same found (fun other same => by cases same; exact keyed)
              simp only [found', keyed]
              rw [if_neg (by decide), ← clean]
              cases json : parameter2json host ip.type ip.name text with
              | error text => simp [json, reduceCtorEq] at passed
              | ok json' =>
                cases json' with
                | none => simp [json, reduceCtorEq] at passed
                | some value =>
                  simp only [json] at passed
                  exact ih tokens passed

end Blanks

end Yunetas.Gobj
