import Mathlib.Data.List.DropRight
import Yunetas.Gobj.Match
import Yunetas.Gobj.Registry

/-!
# Command lines

`build_cmd_kw` of `command_parser.c`: a command line and the kw that came with the command become the
kw of the command, along the parameters that its schema declares. A line is a list of characters,
valid UTF-8; the cursor that walks along it is null behind its end. The json readers of the host are
a parameter.
-/

namespace Yunetas.Gobj

open Json List

/-- `data_type_t`. -/
inductive DataType where
  | string
  | boolean
  | integer
  | real
  | list
  | dict
  | json
  | pointer
  deriving DecidableEq

/-- The number of a type. -/
def DataType.code : DataType → Nat
  | string => 1
  | boolean => 2
  | integer => 3
  | real => 4
  | list => 5
  | dict => 6
  | json => 7
  | pointer => 8

/-- A parameter of a command, `sdata_desc_t`. -/
structure SdataDesc where
  type : DataType
  name : String
  /-- `alias`. -/
  aliases : List String
  /-- `SDF_NOTACCESS` of `flag`. -/
  notaccess : Bool
  /-- `SDF_REQUIRED` of `flag`. -/
  required : Bool
  defaultValue : Option String
  deriving DecidableEq

/-- A command, `sdata_desc_t`. -/
structure CmdDesc where
  name : String
  /-- `SDF_WILD_CMD` of `flag`. -/
  wildCmd : Bool
  schema : Option (List SdataDesc)

/-- What the command parser takes from outside. -/
structure CommandHost where
  /-- `gobj_short_name`. -/
  shortName : String
  /-- `json_loadb` of any json. -/
  anystring2json : List Char → Option Json
  /-- `json_loads` of an array or an object. -/
  string2json : List Char → Option Json
  /-- `json_real` of `atof`: no json of an infinity or a NaN. -/
  jsonReal : List Char → Option Json

/-- A blank of a command line. -/
def isBlank (char : Char) : Bool := char = ' ' || char = '\t'

/-- A quote. -/
def isQuote (char : Char) : Bool := char = '\'' || char = '"'

/-- What is behind a character; null when it does not come. -/
def behind : List Char → Option (List Char)
  | [] => none
  | _ :: rest => some rest

/-- `get_parameter`: the parameter, and where the cursor stands afterwards. The cursor stays before
blanks that nothing follows. -/
def getParameter : Option (List Char) → Option (List Char) × Option (List Char)
  | none => (none, none)
  | some line =>
    match line.dropWhile isBlank with
    | [] => (none, some line)
    | char :: rest =>
      if isQuote char && rest.contains char then
        (some (rest.takeWhile (· ≠ char)), behind (rest.dropWhile (· ≠ char)))
      else
        (some ((char :: rest).takeWhile (!isBlank ·)), behind ((char :: rest).dropWhile (!isBlank ·)))

/-- A blank for `left_justify`. -/
def isJustified (char : Char) : Bool := isBlank char || char = '\n' || char = '\r'

/-- `left_justify`. -/
def leftJustify (text : List Char) : List Char :=
  (text.rdropWhile isJustified).dropWhile isJustified

/-- What `get_key_value_parameter` gives back. -/
structure KeyValue where
  value : Option (List Char)
  /-- `key`, where it is set. -/
  key : Option (List Char)
  savePtr : Option (List Char)
  deriving DecidableEq

/-- The end of `get_key_value_parameter`, behind the equal sign: the cursor is lost behind a quote that
is not closed. -/
def readValue (key : List Char) : List Char → KeyValue
  | [] => ⟨some [], some key, none⟩
  | first :: rest =>
    if isQuote first then
      if rest.contains first then
        ⟨some (rest.takeWhile (· ≠ first)), some key, behind (rest.dropWhile (· ≠ first))⟩
      else ⟨none, some key, none⟩
    else
      ⟨some ((first :: rest).takeWhile (!isBlank ·)), some key,
        behind ((first :: rest).dropWhile (!isBlank ·))⟩

/-- `get_key_value_parameter`. The cursor stays before blanks that nothing follows, and before a text
without an equal sign. -/
def getKeyValueParameter : Option (List Char) → KeyValue
  | none => ⟨none, none, none⟩
  | some line =>
    match line.dropWhile isBlank with
    | [] => ⟨none, none, some line⟩
    | char :: rest =>
      match (char :: rest).dropWhile (· ≠ '=') with
      | [] => ⟨none, none, some (char :: rest)⟩
      | _ :: value => readValue (leftJustify ((char :: rest).takeWhile (· ≠ '='))) value

/-- `find_ip_parameter`. -/
def findIpParameter (inputParameters : List SdataDesc) (key : String) : Option SdataDesc :=
  inputParameters.find? fun ip => strcaseEq ip.name key || ip.aliases.any fun name => strcaseEq name key

/-- `parameter2json`: the json of a text, null where a reader fails. -/
def parameter2json (host : CommandHost) (type : DataType) (name : String) (text : List Char) :
    Except String (Option Json) :=
  match type with
  | .string => .ok (some (.string (String.ofList text)))
  | .boolean =>
    let value :=
      if strcaseEq (String.ofList text) "TRUE" then true
      else if strcaseEq (String.ofList text) "FALSE" then false
      else atoi text ≠ 0
    .ok (some (.boolean value))
  | .integer => .ok (some (.integer (atol text)))
  | .real => .ok (host.jsonReal text)
  | .json => .ok (host.anystring2json text)
  | .list => .ok (host.string2json text)
  | .dict => .ok (host.string2json text)
  | .pointer =>
    .error s!"{host.shortName}: type {type.code} of parameter '{name}' is unknown"

/-- `json_object_set_new`: a null value is not set. -/
def setNew (fields : Fields) (key : String) (value : Option Json) : Fields :=
  match value with
  | none => fields
  | some value => fields.set key value

/-- The required parameters at the head of the schema, from the line and else from kw: the
parameters that are left, the cursor and the kw of the command. -/
def requiredPass (host : CommandHost) (command : String) (kw : Fields) :
    List SdataDesc → Option (List Char) → Fields →
      Except String (List SdataDesc × Option (List Char) × Fields)
  | [], pxxx, kwCmd => .ok ([], pxxx, kwCmd)
  | ip :: rest, pxxx, kwCmd =>
    if ip.notaccess then requiredPass host command kw rest pxxx kwCmd
    else if !ip.required then .ok (ip :: rest, pxxx, kwCmd)
    else
      match getParameter pxxx with
      | (none, pxxx) =>
        match kwGetDictValue kw ip.name.toList with
        | some value => requiredPass host command kw rest pxxx (kwCmd.set ip.name value)
        | none =>
          .error s!"{host.shortName}: command '{command}', parameter '{ip.name}' is required"
      | (some param, pxxx) =>
        if param.contains '=' then
          .error s!"{host.shortName}: required parameter '{ip.name}' not found"
        else
          match parameter2json host ip.type ip.name param with
          | .error text => .error text
          | .ok none =>
            .error s!"{host.shortName}: internal error, command '{command}', parameter '{ip.name}'"
          | .ok (some value) => requiredPass host command kw rest pxxx (kwCmd.set ip.name value)

/-- What kw has for an optional parameter: a text is read where the parameter is no string. -/
def kwParameter (host : CommandHost) (kw : Fields) (ip : SdataDesc) : Option Json :=
  match kw.get? ip.name with
  | none => none
  | some _ =>
    match kwGetDictValue kw ip.name.toList with
    | none => none
    | some (.string text) =>
      if ip.type = .string then some (.string text) else host.anystring2json text.toList
    | some value => some value

/-- The other parameters, from kw and else from their defaults. -/
def valuesPass (host : CommandHost) (kw : Fields) :
    List SdataDesc → Fields → Except String Fields
  | [], kwCmd => .ok kwCmd
  | ip :: rest, kwCmd =>
    if ip.notaccess then valuesPass host kw rest kwCmd
    else
      match kwParameter host kw ip with
      | some value => valuesPass host kw rest (kwCmd.set ip.name value)
      | none =>
        match ip.defaultValue with
        | none => valuesPass host kw rest kwCmd
        | some text =>
          match parameter2json host ip.type ip.name text.toList with
          | .error text => .error text
          | .ok value => valuesPass host kw rest (setNew kwCmd ip.name value)

/-- The json of a parameter of the line. -/
def keyValueJson (host : CommandHost) (command : CmdDesc) (inputParameters : List SdataDesc)
    (pair : List Char × List Char) : Except String Json :=
  let key := String.ofList pair.1
  let read :=
    match findIpParameter inputParameters key with
    | some ip => parameter2json host ip.type ip.name pair.2
    | none =>
      if command.wildCmd then parameter2json host .string "wild-option" pair.2
      else .error s!"{host.shortName}: '{command.name}' command has no option '{key}'"
  match read with
  | .error text => .error text
  | .ok none =>
    let value := String.ofList pair.2
    .error (s!"{host.shortName}: internal error, command '{command.name}', parameter '{key}', " ++
      s!"value '{value}'")
  | .ok (some value) => .ok value

/-- The parameters of the line go into the kw of the command under the keys of the line. -/
def storeKeyValues (host : CommandHost) (command : CmdDesc) (inputParameters : List SdataDesc) :
    List (List Char × List Char) → Fields → Except String Fields
  | [], kwCmd => .ok kwCmd
  | pair :: rest, kwCmd =>
    match keyValueJson host command inputParameters pair with
    | .error text => .error text
    | .ok value =>
      storeKeyValues host command inputParameters rest (kwCmd.set (String.ofList pair.1) value)

/-- `json_object_update_missing`. -/
def updateMissing (fields other : Fields) : Fields :=
  other.foldl
    (fun fields entry => if (fields.get? entry.1).isSome then fields else fields.set entry.1 entry.2)
    fields

/-- The characters a cursor has before it. -/
def cursorLength : Option (List Char) → Nat
  | none => 0
  | some line => line.length + 1

theorem cursorLength_behind (text : List Char) : cursorLength (behind text) ≤ text.length := by
  cases text with
  | nil => exact Nat.le_refl _
  | cons char rest => exact Nat.le_refl _

theorem readValue_savePtr (key text : List Char) :
    cursorLength (readValue key text).savePtr ≤ text.length := by
  cases text with
  | nil => exact Nat.le_refl _
  | cons first rest =>
    have quoted := (dropWhile_suffix (fun char => decide (char ≠ first)) (l := rest)).length_le
    have bare := (dropWhile_suffix (!isBlank ·) (l := first :: rest)).length_le
    have quotedEnd := cursorLength_behind (rest.dropWhile (· ≠ first))
    have bareEnd := cursorLength_behind ((first :: rest).dropWhile (!isBlank ·))
    rw [length_cons] at bare ⊢
    simp only [readValue]
    split
    · split
      · dsimp only
        omega
      · exact Nat.zero_le _
    · dsimp only
      omega

theorem getKeyValueParameter_savePtr {cursor : Option (List Char)} {value : List Char}
    (read : (getKeyValueParameter cursor).value = some value) :
    cursorLength (getKeyValueParameter cursor).savePtr < cursorLength cursor := by
  cases cursor with
  | none => cases read
  | some line =>
    have whole : cursorLength (some line) = line.length + 1 := rfl
    have skipped := (dropWhile_suffix isBlank (l := line)).length_le
    cases start : line.dropWhile isBlank with
    | nil => simp [getKeyValueParameter, start, reduceCtorEq] at read
    | cons char rest =>
      have found := (dropWhile_suffix (fun char => decide (char ≠ '=')) (l := char :: rest)).length_le
      rw [start] at skipped
      cases equal : (char :: rest).dropWhile (fun char => decide (char ≠ '=')) with
      | nil => simp only [getKeyValueParameter, start, equal, reduceCtorEq] at read
      | cons sign text =>
        have bound := readValue_savePtr (leftJustify ((char :: rest).takeWhile (· ≠ '='))) text
        rw [equal, length_cons] at found
        simp only [getKeyValueParameter, start, equal]
        omega

/-- The loop that reads the parameters of the line, and its last read. Storing them does not touch the
line, and a parameter that is refused ends the whole. -/
def readKeyValues (cursor : Option (List Char)) : List (List Char × List Char) × KeyValue :=
  match _found : (getKeyValueParameter cursor).value with
  | none => ([], getKeyValueParameter cursor)
  | some value =>
    let rest := readKeyValues (getKeyValueParameter cursor).savePtr
    (((getKeyValueParameter cursor).key.getD [], value) :: rest.1, rest.2)
termination_by cursorLength cursor
decreasing_by exact getKeyValueParameter_savePtr (by assumption)

/-- `build_cmd_kw`: the kw of the command, or the text of the refusal. -/
def buildCmdKw (host : CommandHost) (command : CmdDesc) (parameters : Option (List Char))
    (kw : Fields) : Except String Fields :=
  let pxxx := some (parameters.getD [])
  match command.schema with
  | none => .ok (updateMissing [] kw)
  | some inputParameters =>
    match requiredPass host command.name kw inputParameters pxxx [] with
    | .error text => .error text
    | .ok (rest, pxxx, kwCmd) =>
      match valuesPass host kw rest kwCmd with
      | .error text => .error text
      | .ok kwCmd =>
        let read := readKeyValues pxxx
        match storeKeyValues host command inputParameters read.1 kwCmd with
        | .error text => .error text
        | .ok kwCmd =>
          match read.2.savePtr with
          | some (char :: rest) =>
            let extra := String.ofList (char :: rest)
            .error s!"{host.shortName}: command '{command.name}' with extra parameters: '{extra}'"
          | _ => .ok (updateMissing kwCmd kw)

end Yunetas.Gobj
