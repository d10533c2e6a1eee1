import Yunetas.Verif.CommandTokens

/-!
# Command lines deliver their parameters

What `build_cmd_kw` makes of the lines it accepts: under which name it keeps the parameters of a line,
which required parameters it asks for, and when the blanks of a line make no difference.
-/

namespace Yunetas.Gobj

open List Option

open Json

section CommandLine

variable (host : CommandHost) (command : CmdDesc) (schema : List SdataDesc) (kw : Fields)

/-- The parameters that are given by position: the required ones before the first that is not. -/
def leading : List SdataDesc := (schema.filter (!·.notaccess)).takeWhile (·.required)

/-- The words of the line for parameters given by position, and the cursor behind them. -/
def positionals :
    List SdataDesc → Option (List Char) → List (SdataDesc × List Char) × Option (List Char)
  | [], cursor => ([], cursor)
  | ip :: rest, cursor =>
    let found := getParameter cursor
    let others := positionals rest found.2
    ((found.1.map fun text => (ip, text)).toList ++ others.1, others.2)

/-- The parameters that a line gives by key, with their values; a quote that is not closed gives
none. -/
def mentions (cursor : Option (List Char)) : List (List Char × Option (List Char)) :=
  let read := readKeyValues cursor
  read.1.map (fun pair => (pair.1, some pair.2)) ++ (read.2.key.map fun key => (key, none)).toList

/-- The word before the equal sign. -/
def lastWord (key : List Char) : List Char := key.rtakeWhile (!isBlank ·)

/-- The parameter that a key names, by its name or by one of its aliases, in any letter case. -/
def named (key : List Char) : Option SdataDesc :=
  (findIpParameter schema (String.ofList key)).or
    (findIpParameter schema (String.ofList (lastWord key)))

/-- The last time that a line gives a parameter by key. -/
def LastMention (cursor : Option (List Char)) (ip : SdataDesc)
    (mention : List Char × Option (List Char)) : Prop :=
  ∃ before after, mentions cursor = before ++ mention :: after ∧ named schema mention.1 = some ip ∧
    ∀ later ∈ after, named schema later.1 ≠ some ip

/-- The json of a text for a parameter. -/
def valueOf (ip : SdataDesc) (text : List Char) : Option Json :=
  match parameter2json host ip.type ip.name text with
  | .error _ => none
  | .ok value => value

/-- Every parameter given by key is in the kw of the command, under its declared name, with the value
that the line gives it last. -/
def Delivered (cursor : Option (List Char)) (result : Fields) : Prop :=
  ∀ ip mention, LastMention schema cursor ip mention →
    ∃ text json, mention.2 = some text ∧ valueOf host ip text = some json ∧
      result.get? ip.name = some json

/-- The kw of the command before the parameters given by key: positions, kw, defaults. -/
def baseKw (line : List Char) : Fields :=
  match requiredPass host command.name kw schema (some line) [] with
  | .error _ => []
  | .ok (rest, _, kwCmd) =>
    match valuesPass host kw rest kwCmd with
    | .error _ => []
    | .ok kwCmd => kwCmd

/-- The value of a name from the other sources: the last parameter with exactly this key, the
positions, kw and the defaults. -/
def otherSources (cursor : Option (List Char)) (line : List Char) (name : String) : Option Json :=
  match ((readKeyValues cursor).1.filter fun pair => String.ofList pair.1 = name).getLast? with
  | some pair => (keyValueJson host command schema pair).toOption
  | none => ((baseKw host command schema kw line).get? name).or (kw.get? name)

/-- The parameters given by key are last given with a closed quote and under their declared names, to
the letter; or with the value that the name has from the other sources. -/
def ByName (cursor : Option (List Char)) (line : List Char) : Prop :=
  ∀ ip mention, LastMention schema cursor ip mention →
    ∃ text, mention.2 = some text ∧ (String.ofList mention.1 = ip.name ∨
      ∃ json, valueOf host ip text = some json ∧
        otherSources host command schema kw cursor line ip.name = some json)

/-- Every required parameter is on the line, by position or by key, or in kw. -/
def RequiredThere (cursor : Option (List Char)) (line : List Char) : Prop :=
  ∀ ip ∈ schema, ip.required = true →
    (∃ text, (ip, text) ∈ (positionals (leading schema) (some line)).1) ∨
      (∃ mention ∈ mentions cursor, named schema mention.1 = some ip) ∨
      (kwGetDictValue kw ip.name.toList).isSome = true

/-- The required parameters that are not at the head of the schema are on the line by key, or in
kw. -/
def RequiredBehind (cursor : Option (List Char)) : Prop :=
  ∀ ip ∈ schema, ip.required = true → ip ∉ leading schema →
    (∃ mention ∈ mentions cursor, named schema mention.1 = some ip) ∨
      (kwGetDictValue kw ip.name.toList).isSome = true

variable {host command schema kw}

theorem get?_updateMissing (fields other : Fields) (key : String) :
    (updateMissing fields other).get? key = (fields.get? key).or (other.get? key) := by
  unfold updateMissing
  induction other generalizing fields with
  | nil =>
    have none' : Fields.get? [] key = none := rfl
    rw [foldl_nil, none', or_none]
  | cons entry rest ih =>
    rw [foldl_cons, ih]
    have head : Fields.get? (entry :: rest) key =
        if entry.1 = key then some entry.2 else Fields.get? rest key := rfl
    rw [head]
    cases present : fields.get? entry.1 with
    | some value =>
      rw [isSome_some, if_pos rfl]
      by_cases here : entry.1 = key
      · rw [if_pos here, ← here, present, some_or, some_or]
      · rw [if_neg here]
    | none =>
      rw [isSome_none, if_neg (by decide), Fields.get?_set]
      by_cases here : key = entry.1
      · rw [if_pos here, if_pos here.symm, here, present, some_or, none_or]
      · rw [if_neg here, if_neg (Ne.symm here)]

theorem get?_storeKeyValues {pairs : List (List Char × List Char)} {fields result : Fields}
    (stored : storeKeyValues host command schema pairs fields = .ok result) (name : String) :
    result.get? name =
      match (pairs.filter fun pair => String.ofList pair.1 = name).getLast? with
      | some pair => (keyValueJson host command schema pair).toOption
      | none => fields.get? name := by
  induction pairs generalizing fields with
  | nil =>
    rw [storeKeyValues] at stored
    cases stored
    rfl
  | cons pair rest ih =>
    rw [storeKeyValues] at stored
    cases read : keyValueJson host command schema pair with
    | error text => simp [read, reduceCtorEq] at stored
    | ok value =>
      simp only [read] at stored
      rw [ih stored]
      by_cases here : String.ofList pair.1 = name
      · rw [filter_cons_of_pos (by simpa using here), getLast?_cons]
        cases last : (rest.filter fun pair => String.ofList pair.1 = name).getLast? with
        | some other => simp
        | none =>
          simp only [getD_none, read, Except.toOption]
          rw [here, Fields.get?_set_self]
      · rw [filter_cons_of_neg (by simpa using here), Fields.get?_set_ne _ _ (Ne.symm here)]

theorem accepted_parts {line : List Char} {result : Fields} (declared : command.schema = some schema)
    (accepted : buildCmdKw host command (some line) kw = .ok result) :
    ∃ rest cursor kwCmd base stored,
      requiredPass host command.name kw schema (some line) [] = .ok (rest, cursor, kwCmd) ∧
      valuesPass host kw rest kwCmd = .ok base ∧
      storeKeyValues host command schema (readKeyValues cursor).1 base = .ok stored ∧
      (∀ char more, (readKeyValues cursor).2.savePtr ≠ some (char :: more)) ∧
      result = updateMissing stored kw := by
  unfold buildCmdKw at accepted
  rw [declared] at accepted
  dsimp only [getD_some] at accepted
  cases first : requiredPass host command.name kw schema (some line) [] with
  | error text => simp [first, reduceCtorEq] at accepted
  | ok parts =>
    have ⟨rest, cursor, kwCmd⟩ := parts
    simp only [first] at accepted
    cases second : valuesPass host kw rest kwCmd with
    | error text => simp [second, reduceCtorEq] at accepted
    | ok base =>
      simp only [second] at accepted
      cases third : storeKeyValues host command schema (readKeyValues cursor).1 base with
      | error text => simp [third, reduceCtorEq] at accepted
      | ok stored =>
        simp only [third] at accepted
        split at accepted
        · cases accepted
        · rename_i ended
          refine ⟨rest, cursor, kwCmd, base, stored, rfl, second, third, ?_, ?_⟩
          · intro char more same
            exact ended char more same
          · exact (Except.ok.inj accepted).symm

theorem keyValueJson_of_stored {pairs : List (List Char × List Char)} {fields result : Fields}
    (stored : storeKeyValues host command schema pairs fields = .ok result)
    {pair : List Char × List Char} (among : pair ∈ pairs) :
    ∃ value, keyValueJson host command schema pair = .ok value := by
  induction pairs generalizing fields with
  | nil => cases among
  | cons first rest ih =>
    rw [storeKeyValues] at stored
    cases read : keyValueJson host command schema first with
    | error text => simp [read, reduceCtorEq] at stored
    | ok value =>
      simp only [read] at stored
      rcases mem_cons.1 among with rfl | later
      · exact ⟨value, read⟩
      · exact ih stored later

theorem leading_cons (ip : SdataDesc) (rest : List SdataDesc) :
    leading (ip :: rest) =
      if ip.notaccess then leading rest else if ip.required then ip :: leading rest else [] := by
  unfold leading
  cases hidden : ip.notaccess with
  | true => rw [filter_cons_of_neg (by simp [hidden]), if_pos rfl]
  | false =>
    rw [filter_cons_of_pos (by simp [hidden]), if_neg (by decide), takeWhile_cons]

/-- Where the cursor is after the required parameters, and where each of them comes from. -/
theorem requiredPass_spec {name : String} {cursor next : Option (List Char)}
    {rest : List SdataDesc} {kwCmd out : Fields}
    (passed : requiredPass host name kw schema cursor kwCmd = .ok (rest, next, out)) :
    next = (positionals (leading schema) cursor).2 ∧
      ∀ ip ∈ leading schema, (∃ text, (ip, text) ∈ (positionals (leading schema) cursor).1) ∨
        (kwGetDictValue kw ip.name.toList).isSome = true := by
  induction schema generalizing cursor kwCmd with
  | nil =>
    rw [requiredPass] at passed
    cases passed
    exact ⟨rfl, fun ip among => absurd among not_mem_nil⟩
  | cons ip others ih =>
    rw [leading_cons]
    rw [requiredPass] at passed
    cases hidden : ip.notaccess with
    | true =>
      rw [hidden, if_pos rfl] at passed
      rw [if_pos rfl]
      exact ih passed
    | false =>
      rw [hidden, if_neg (by decide)] at passed
      rw [if_neg (by decide)]
      cases needed : ip.required with
      | false =>
        rw [needed, if_pos (by decide)] at passed
        cases passed
        exact ⟨rfl, fun ip among => absurd among not_mem_nil⟩
      | true =>
        rw [needed, if_neg (by decide)] at passed
        rw [if_pos rfl]
        cases found : getParameter cursor with
        | mk param behind =>
          simp only [found] at passed
          -- what is known of the others holds behind the word of this one
          have later : (∀ out', requiredPass host name kw others behind out' = .ok (rest, next, out) →
              (∃ text, (ip, text) ∈ (positionals (ip :: leading others) cursor).1) ∨
                (kwGetDictValue kw ip.name.toList).isSome = true →
              next = (positionals (ip :: leading others) cursor).2 ∧ ∀ other ∈ ip :: leading others,
                  (∃ text, (other, text) ∈ (positionals (ip :: leading others) cursor).1) ∨
                    (kwGetDictValue kw other.name.toList).isSome = true) := by
            intro out' passed here
            have ⟨cursor', each⟩ := ih passed
            have shape : positionals (ip :: leading others) cursor =
                ((param.map fun text => (ip, text)).toList ++
                  (positionals (leading others) behind).1,
                  (positionals (leading others) behind).2) := by
              rw [positionals, found]
            refine ⟨by rw [shape, cursor'], fun other among => ?_⟩
            rcases mem_cons.1 among with rfl | rest
            · exact here
            · refine (each other rest).imp_left fun ⟨text, member⟩ => ⟨text, ?_⟩
              rw [shape]
              exact mem_append_right _ member
          cases param with
          | none =>
            cases value : kwGetDictValue kw ip.name.toList with
            | none => simp [value, reduceCtorEq] at passed
            | some value' =>
              simp only [value] at passed
              exact later _ passed (.inr (by rw [value]; rfl))
          | some text =>
            dsimp only at passed
            split at passed
            · cases passed
            · split at passed
              · cases passed
              · cases passed
              · refine later _ passed (.inl ⟨text, ?_⟩)
                rw [positionals, found]
                exact mem_append_left _ (mem_singleton.2 rfl)

section

variable {key : List Char} {ip : SdataDesc} (found : named schema key = some ip)
include found

theorem mem_of_named :
    ip ∈ schema := by
  rcases or_eq_some_iff.1 found with exactly | ⟨-, last⟩
  · exact mem_of_find?_eq_some exactly
  · exact mem_of_find?_eq_some last

theorem findIpParameter_of_named (declared : String.ofList key = ip.name) :
    findIpParameter schema (String.ofList key) = some ip := by
  have some' : (findIpParameter schema (String.ofList key)).isSome = true := by
    unfold findIpParameter
    rw [find?_isSome]
    refine ⟨ip, mem_of_named found, ?_⟩
    rw [declared, Bool.or_eq_true]
    exact .inl (decide_eq_true rfl)
  unfold named at found
  rwa [or_of_isSome some'] at found

end

theorem mention_split {cursor : Option (List Char)} {key text : List Char}
    {before after : List (List Char × Option (List Char))}
    (split : mentions cursor = before ++ (key, some text) :: after) :
    ∃ first second, (readKeyValues cursor).1 = first ++ (key, text) :: second ∧
      ∀ pair ∈ second, (pair.1, some pair.2) ∈ after := by
  unfold mentions at split
  have outside : (key, some text) ∉
      ((readKeyValues cursor).2.key.map fun key => (key, (none : Option (List Char)))).toList := by
    intro among
    have ⟨other, _, same⟩ := map_eq_some_iff.1 (mem_toList.1 among)
    cases same
  rcases append_eq_append_iff.1 split with ⟨more, -, rest⟩ | ⟨more, pairs, rest⟩
  · refine absurd ?_ outside
    rw [rest]
    exact mem_append_right _ mem_cons_self
  · cases more with
    | nil =>
      refine absurd ?_ outside
      rw [nil_append] at rest
      rw [← rest]
      exact mem_cons_self
    | cons head others =>
      rw [cons_append, List.cons.injEq] at rest
      rw [← rest.1] at pairs
      have ⟨first, second, same, _, ends⟩ := map_eq_append_iff.1 pairs
      obtain ⟨pair, second, rfl, equal, others'⟩ := map_eq_cons_iff.1 ends
      obtain ⟨rfl, value⟩ := Prod.mk.inj equal
      cases value
      refine ⟨first, second, same, fun other among => ?_⟩
      rw [rest.2, ← others']
      exact mem_append_left _ (mem_map_of_mem among)

theorem keyValueJson_declared {ip : SdataDesc} {pair : List Char × List Char}
    (found : findIpParameter schema (String.ofList pair.1) = some ip) {value : Json}
    (read : keyValueJson host command schema pair = .ok value) :
    valueOf host ip pair.2 = some value := by
  unfold keyValueJson at read
  unfold valueOf
  simp only [found] at read
  cases parsed : parameter2json host ip.type ip.name pair.2 with
  | error text => simp [parsed, reduceCtorEq] at read
  | ok json =>
    cases json with
    | none => simp [parsed, reduceCtorEq] at read
    | some json =>
      simp only [parsed] at read
      rw [Except.ok.inj read]

section Accepted

variable {line : List Char} {result base : Fields} {rest : List SdataDesc}
  {cursor : Option (List Char)} {kwCmd stored : Fields}

theorem get?_result
    (first : requiredPass host command.name kw schema (some line) [] = .ok (rest, cursor, kwCmd))
    (second : valuesPass host kw rest kwCmd = .ok base)
    (third : storeKeyValues host command schema (readKeyValues cursor).1 base = .ok stored)
    (name : String) :
    (updateMissing stored kw).get? name = otherSources host command schema kw cursor line name := by
  have base' : baseKw host command schema kw line = base := by
    unfold baseKw
    simp [first, second]
  unfold otherSources
  rw [get?_updateMissing, get?_storeKeyValues third, base']
  cases last : ((readKeyValues cursor).1.filter fun pair => String.ofList pair.1 = name).getLast? with
  | none => rfl
  | some pair =>
    have among : pair ∈ (readKeyValues cursor).1 := mem_of_mem_filter (mem_of_getLast? last)
    have ⟨value, read⟩ := keyValueJson_of_stored third among
    simp [read, Except.toOption]

theorem delivered_by_name
    (third : storeKeyValues host command schema (readKeyValues cursor).1 base = .ok stored)
    {ip : SdataDesc} {key text : List Char}
    (last : LastMention schema cursor ip (key, some text))
    (declared : String.ofList key = ip.name) :
    ∃ json, valueOf host ip text = some json ∧
      otherSources host command schema kw cursor line ip.name = some json := by
  have ⟨before, after, split, found, none'⟩ := last
  have ⟨first, second, pairs, later⟩ := mention_split split
  have among : (key, text) ∈ (readKeyValues cursor).1 := by
    rw [pairs]
    exact mem_append_right _ mem_cons_self
  have ⟨json, read⟩ := keyValueJson_of_stored third among
  have others : second.filter (fun pair => decide (String.ofList pair.1 = ip.name)) = [] := by
    refine filter_eq_nil_iff.2 fun pair member same => ?_
    have equal : pair.1 = key :=
      String.ofList_injective ((of_decide_eq_true same).trans declared.symm)
    exact none' _ (later pair member) (equal ▸ found)
  have lastPair : ((readKeyValues cursor).1.filter fun pair =>
      String.ofList pair.1 = ip.name).getLast? = some (key, text) := by
    rw [pairs, filter_append, filter_cons_of_pos (by simpa using declared), others]
    exact getLast?_concat
  have value : valueOf host ip text = some json :=
    @keyValueJson_declared _ _ _ ip (key, text) (findIpParameter_of_named found declared) json read
  refine ⟨json, value, ?_⟩
  unfold otherSources
  simp [lastPair, read, Except.toOption]

section

variable
  (first : requiredPass host command.name kw schema (some line) [] = .ok (rest, cursor, kwCmd))
include first

theorem delivered_iff (second : valuesPass host kw rest kwCmd = .ok base)
    (third : storeKeyValues host command schema (readKeyValues cursor).1 base = .ok stored) :
    Delivered host schema cursor (updateMissing stored kw) ↔
      ByName host command schema kw cursor line := by
  constructor
  · intro delivered ip mention last
    have ⟨text, json, given, value, there⟩ := delivered ip mention last
    rw [get?_result first second third] at there
    exact ⟨text, given, .inr ⟨json, value, there⟩⟩
  · intro byName ip mention last
    have ⟨text, given, either⟩ := byName ip mention last
    have same : mention = (mention.1, some text) := Prod.ext rfl given
    have source : ∃ json, valueOf host ip text = some json ∧
        otherSources host command schema kw cursor line ip.name = some json := by
      rcases either with declared | other
      · exact delivered_by_name third (same ▸ last) declared
      · exact other
    have ⟨json, value, there⟩ := source
    exact ⟨text, json, given, value, (get?_result first second third _).trans there⟩

theorem requiredThere_iff :
    RequiredThere schema kw cursor line ↔ RequiredBehind schema kw cursor := by
  have heads := (requiredPass_spec first).2
  have positional : ∀ {parameters : List SdataDesc} {cursor : Option (List Char)} {ip text},
      (ip, text) ∈ (positionals parameters cursor).1 → ip ∈ parameters := by
    intro parameters
    induction parameters with
    | nil => exact fun among => absurd among not_mem_nil
    | cons head others ih =>
      intro cursor ip text among
      rw [positionals] at among
      rcases mem_append.1 among with here | later
      · have ⟨found, _, same⟩ := map_eq_some_iff.1 (mem_toList.1 here)
        cases same
        exact mem_cons_self
      · exact mem_cons_of_mem _ (ih later)
  constructor
  · intro all ip among needed outside
    exact (all ip among needed).resolve_left fun ⟨_, member⟩ => outside (positional member)
  · intro behind ip among needed
    by_cases head : ip ∈ leading schema
    · exact (heads ip head).imp_right .inr
    · exact .inr (behind ip among needed head)

end

end Accepted

end CommandLine

section Blanks

variable {host : CommandHost} {command : CmdDesc} {schema : List SdataDesc} {kw : Fields}

/-- A line that differs from an accepted one in its blanks only is accepted, with the same result,
when it ends clean. -/
theorem respaced_iff {line other : List Char} {result : Fields}
    (declared : command.schema = some schema)
    (accepted : buildCmdKw host command (some line) kw = .ok result)
    (keyed : ∀ token ∈ cursorTokens (positionals (leading schema) (some line)).2,
      token.isPair = true)
    (same : (lineTokens other).1 = (lineTokens line).1) :
    buildCmdKw host command (some other) kw = .ok result ↔ endsClean other = true := by
  obtain ⟨rest, cursor, kwCmd, base, stored, first, second, third, -, rfl⟩ :=
    accepted_parts declared accepted
  rw [← (requiredPass_spec first).1] at keyed
  have ⟨next, first', tokens, clean⟩ :=
    @requiredPass_respaced _ _ _ _ (some line) (some other) _ _ _ _ same first
  have here := readKeyValues_tokens rfl keyed
  have there := readKeyValues_tokens tokens keyed
  rw [clean, cursorClean_some] at there
  have pairs : (readKeyValues next).1 = (readKeyValues cursor).1 := there.1.trans here.1.symm
  unfold buildCmdKw
  rw [declared]
  dsimp only [getD_some]
  simp only [first', second, pairs, third]
  rw [← there.2]
  cases left : (readKeyValues next).2.savePtr with
  | none => exact iff_of_true rfl rfl
  | some text =>
    cases text with
    | nil => exact iff_of_true rfl rfl
    | cons char more => exact iff_of_false (by simp) (by simp [ended])

end Blanks

/-- What an accepted line does: the parameters it gives by key are delivered when they are given by
their declared names, the required parameters are there when those behind the head of the schema are,
and another line with the same tokens gives the same when it ends clean. -/
theorem command_line_iff (host : CommandHost) (command : CmdDesc) (schema : List SdataDesc)
    (kw : Fields) (line : List Char) (result : Fields) (declared : command.schema = some schema)
    (accepted : buildCmdKw host command (some line) kw = .ok result) :
    (Delivered host schema (positionals (leading schema) (some line)).2 result ↔
      ByName host command schema kw (positionals (leading schema) (some line)).2 line) ∧
    (RequiredThere schema kw (positionals (leading schema) (some line)).2 line ↔
      RequiredBehind schema kw (positionals (leading schema) (some line)).2) ∧
    ((∀ token ∈ cursorTokens (positionals (leading schema) (some line)).2, token.isPair = true) →
      ∀ other, (lineTokens other).1 = (lineTokens line).1 →
        (buildCmdKw host command (some other) kw = .ok result ↔ endsClean other = true)) := by
  have ⟨rest, cursor, kwCmd, base, stored, first, second, third, _, same⟩ :=
    accepted_parts declared accepted
  have cursor' := (requiredPass_spec first).1
  refine ⟨?_, ?_, fun keyed other tokens => respaced_iff declared accepted keyed tokens⟩
  · rw [← cursor', same]
    exact delivered_iff first second third
  · rw [← cursor']
    exact requiredThere_iff first

/-- A line with a word by position and a parameter by name. -/
theorem command_line_delivers :
    let schema : List SdataDesc :=
      [⟨.string, "id", [], false, true, none⟩, ⟨.string, "mode", ["m"], false, false, some "z"⟩]
    let host : CommandHost := ⟨"yuno", fun _ => none, fun _ => none, fun _ => none⟩
    let command : CmdDesc := ⟨"run", false, some schema⟩
    let result : Fields := [("id", .string "a"), ("mode", .string "x")]
    (Delivered host schema (positionals (leading schema) (some "a mode=x".toList)).2 result ↔
      ByName host command schema [] (positionals (leading schema) (some "a mode=x".toList)).2
        "a mode=x".toList) ∧
    (buildCmdKw host command (some "a  mode=x ".toList) [] = .ok result ↔
      endsClean "a  mode=x ".toList = true) := by
  intro schema host command result
  have accepted : buildCmdKw host command (some "a mode=x".toList) [] = .ok result := by
    with_unfolding_all rfl
  have all := command_line_iff host command schema [] "a mode=x".toList result rfl accepted
  exact ⟨all.1, all.2.2 (by decide +kernel) _ (by decide +kernel)⟩

/-- A line that is accepted: its parameter is kept under the alias, a required parameter behind an
optional one is not asked for, and with two blanks more the line is refused. -/
theorem command_line_astray :
    let mode : SdataDesc := ⟨.string, "mode", ["m"], false, false, none⟩
    let id : SdataDesc := ⟨.string, "id", [], false, true, none⟩
    let host : CommandHost := ⟨"yuno", fun _ => none, fun _ => none, fun _ => none⟩
    let command : CmdDesc := ⟨"run", false, some [mode, id]⟩
    let cursor := (positionals (leading [mode, id]) (some "m=x".toList)).2
    (∃ result, buildCmdKw host command (some "m=x".toList) [] = .ok result ∧
      ¬ Delivered host [mode, id] cursor result) ∧
    ¬ RequiredThere [mode, id] [] cursor "m=x".toList ∧
    (lineTokens "m=x  ".toList).1 = (lineTokens "m=x".toList).1 ∧
    ∀ result, buildCmdKw host command (some "m=x  ".toList) [] ≠ .ok result := by
  intro mode id host command cursor
  have only : mentions cursor = [(['m'], some ['x'])] := by decide +kernel
  refine ⟨?_, fun there => ?_, by decide +kernel, fun result accepted => ?_⟩
  · have without : ((buildCmdKw host command (some "m=x".toList) []).toOption.map
        fun result => (result.get? "mode").isNone) = some true := by decide +kernel
    cases built : buildCmdKw host command (some "m=x".toList) [] with
    | error text =>
      rw [built] at without
      cases without
    | ok result =>
      rw [built] at without
      refine ⟨result, rfl, fun delivered => ?_⟩
      have last : LastMention [mode, id] cursor mode (['m'], some ['x']) :=
        ⟨[], [], only, by decide +kernel, fun _ among => absurd among List.not_mem_nil⟩
      have ⟨_, json, _, _, found⟩ := delivered mode _ last
      have none' : (result.get? mode.name).isNone = true := Option.some.inj without
      rw [found] at none'
      cases none'
  · rcases there id (by simp) rfl with ⟨_, among⟩ | ⟨mention, among, found⟩ | inKw
    · exact absurd among List.not_mem_nil
    · rw [only, List.mem_singleton] at among
      rw [among] at found
      exact absurd found (by decide +kernel)
    · exact absurd inKw (by decide +kernel)
  · have refused : (buildCmdKw host command (some "m=x  ".toList) []).toOption.isSome = false := by
      decide +kernel
    rw [accepted] at refused
    cases refused

end Yunetas.Gobj
