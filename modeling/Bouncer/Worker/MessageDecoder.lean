import Bouncer.Library.Fallible
import Bouncer.Library.Json

/-!
# The messages of the worker

A message is a command and its arguments, between white space.  `import` and `processDrawing` name a file, which is first
rewritten with the tag of the shared directory replaced, and whose members are then read.  What goes wrong while a message
is decoded ends in an error code.

The file system, and the processes that are run, are those of a `Machine`.
-/

namespace Bouncer.Worker

open Library (Json)

abbrev Text := List Char

/-! ### Texts -/

/-- White space, as `\s` in a regular expression. -/
def isSpace (c : Char) : Bool :=
  decide (c.toNat ∈ [9, 10, 11, 12, 13, 32, 160, 0x1680, 0x2028, 0x2029, 0x202f, 0x205f, 0x3000, 0xfeff]) ||
    decide (0x2000 ≤ c.toNat ∧ c.toNat ≤ 0x200a)

/-- `split(/\s+/)`: there is an empty word before white space at the start, and after white space at the end. -/
def split : Text → List Text
  | [] => [[]]
  | c :: rest =>
    if isSpace c then
      match rest with
      | d :: _ => if isSpace d then split rest else [] :: split rest
      | [] => [[], []]
    else
      match split rest with
      | word :: words => (c :: word) :: words
      | [] => [[c]]

example : split "genStash  a ".toList = ["genStash".toList, "a".toList, []] := by decide

/-- The text before and after the first occurrence of a pattern. -/
def around (pattern : Text) : Text → Option (Text × Text)
  | [] => if pattern = [] then some ([], []) else none
  | c :: rest =>
    if pattern.isPrefixOf (c :: rest) then some ([], (c :: rest).drop pattern.length)
    else (around pattern rest).map fun p => (c :: p.1, p.2)

/-- What is put for a dollar sign and this character in the second argument of `replace`. -/
def substitution (pattern before rest : Text) (d : Char) : Option Text :=
  if d = '$' then some ['$']
  else if d = '&' then some pattern
  else if d.toNat = 96 then some before
  else if d.toNat = 39 then some rest
  else none

/-- The second argument of `replace`, with its dollar signs. -/
def substitute (pattern before rest : Text) : Text → Text
  | [] => []
  | [c] => [c]
  | c :: d :: text =>
    match if c = '$' then substitution pattern before rest d else none with
    | some put => put ++ substitute pattern before rest text
    | none => c :: substitute pattern before rest (d :: text)

/-- `replace` with a string for the pattern: the first occurrence is replaced. -/
def replace (text pattern replacement : Text) : Text :=
  match around pattern text with
  | none => text
  | some (before, rest) => before ++ substitute pattern before rest replacement ++ rest

/-! ### Values -/

inductive Scalar where
  | null
  | bool (b : Bool)
  | number (literal : Text)
  | string (text : Text)

/-- A value of JSON. -/
abbrev Value := Json Text Scalar

/-- A value of JavaScript that comes from JSON, or `undefined`. -/
abbrev JsValue := Option Value

def JsValue.text (text : Text) : JsValue := some (.scalar (.string text))

/-- What is thrown: an error code, or an `Error` of the language or of a library. -/
inductive Thrown where
  | code (n : ℕ)
  | error
  deriving DecidableEq

/-- The last member with this key counts. -/
def member (key : Text) : Json.Members Text Scalar → JsValue
  | .nil => none
  | .cons key' v rest => (member key rest).or (if key' = key then some v else none)

/-- A property whose key no built-in type has. -/
def property (key : Text) : Value → Except Thrown JsValue
  | .scalar .null => .error .error
  | .object members => .ok (member key members)
  | _ => .ok none

mutual

/-- The value can be made into a string, as `join` does.  An object cannot if it has a member `toString`, which is no
function. -/
def convertible : Value → Bool
  | .scalar _ => true
  | .array items => convertibleItems items
  | .object members => (member "toString".toList members).isNone

def convertibleItems : Json.Items Text Scalar → Bool
  | .nil => true
  | .cons v rest => convertible v && convertibleItems rest

end

/-! ### The machine -/

/-- The programs that are run. -/
inductive Program where
  | bouncer
  | pdf2svg
  deriving DecidableEq

/-- What becomes of a process: `spawn` throws (as for a null character among the parameters), or the process is closed with
a code, or with none if it was killed, and before that the time may have run out. -/
inductive Outcome where
  | refused
  | closed (code : Option ℕ) (isTimeout : Bool)
  deriving DecidableEq

/-- The settings, the file system, the functions of `path` and the processes.  Where there is no result, an `Error` is
thrown. -/
structure Machine where
  sharedDir : Text
  configPath : Text
  taskLogDir : Text
  readFileSync : Text → Option Text
  writeFileSync : Text → Text → Option Unit
  require : Text → Option Value
  statSync : Text → Option ℕ
  access : Text → Bool
  dirname : Text → Text
  join : List Text → Text
  spawn : Program → List JsValue → Outcome

def ERRCODE_OK : ℕ := 0
def ERRCODE_UNKNOWN_ERROR : ℕ := 4
def ERRCODE_BOUNCER_CRASH : ℕ := 12
def ERRCODE_ARG_FILE_FAIL : ℕ := 16
def ERRCODE_TIMEOUT : ℕ := 29
def ERRCODE_REPO_LICENCE_INVALID : ℕ := 36
def ERRCODE_IMAGE_PROCESSING_FAILED : ℕ := 38

/-- Failures that should go through to generate. -/
def BOUNCER_SOFT_FAILS : List ℕ := [7, 10, 15]

/-- A result of the machine, or an `Error`. -/
def orError {α : Type} : Option α → Except Thrown α
  | none => .error .error
  | some a => .ok a

/-! ### The decoder -/

/-- What a message says.  Commands leave out what they do not have. -/
structure Decoded where
  errorCode : Option ℕ := none
  command : Text := []
  cmdParams : List Text := []
  teamspace : JsValue := none
  container : JsValue := none
  project : JsValue := none
  drawing : JsValue := none
  user : JsValue := none
  file : JsValue := none
  format : JsValue := none
  size : JsValue := none
  configFile : Option Text := none

variable (m : Machine)

def replaceSharedDirTag (data : Text) : Text := replace data "$SHARED_SPACE".toList m.sharedDir

/-- Replace the tag in a file. -/
def rewriteFile (path : Option Text) : Except Thrown Unit := do
  let path ← orError path
  let path := replaceSharedDirTag m path
  let content ← orError (m.readFileSync path)
  orError (m.writeFileSync path (replaceSharedDirTag m content))

def replaceSharedDirPlaceHolder (command : Text) : Except Thrown Text := do
  let cmdArr := split command
  if cmdArr[0]? = some "import".toList then
    rewriteFile m cmdArr[2]?
    return replaceSharedDirTag m command
  else if cmdArr[0]? = some "processDrawing".toList then
    rewriteFile m cmdArr[1]?
    return replaceSharedDirTag m command
  else
    return command

/-- `import`: its file is its second argument. -/
def decodeImport (args : List Text) : Except Thrown Decoded := do
  let cmdFile ← orError (args[2]?.bind m.require)
  return {
    command := args.headD []
    cmdParams := m.configPath :: args
    teamspace := ← property "teamspace".toList cmdFile
    container := ← property "container".toList cmdFile
    user := ← property "owner".toList cmdFile
    file := ← property "file".toList cmdFile }

/-- `processDrawing`: its file is its first argument. -/
def decodeProcessDrawing (args : List Text) : Except Thrown Decoded := do
  let cmdFile ← orError (args[1]?.bind m.require)
  return {
    command := args.headD []
    cmdParams := m.configPath :: args
    teamspace := ← property "teamspace".toList cmdFile
    drawing := ← property "drawing".toList cmdFile
    user := ← property "owner".toList cmdFile
    file := ← property "file".toList cmdFile
    format := ← property "format".toList cmdFile
    size := ← property "size".toList cmdFile }

/-- `processClash`: its arguments are not passed on. -/
def decodeProcessClash (args : List Text) : Decoded where
  command := args.headD []
  cmdParams := [m.configPath]
  teamspace := args[1]?.bind JsValue.text
  project := args[2]?.bind JsValue.text
  configFile := args[3]?

def decodeGenStash (args : List Text) : Decoded where
  command := args.headD []
  cmdParams := m.configPath :: args
  teamspace := args[1]?.bind JsValue.text
  container := args[2]?.bind JsValue.text

/-- What is tried in `messageDecoder`. -/
def decode (cmd : Text) : Except Thrown Decoded := do
  let replaced ← replaceSharedDirPlaceHolder m cmd
  let args := split replaced
  if args[0]? = some "import".toList then decodeImport m args
  else if args[0]? = some "processDrawing".toList then decodeProcessDrawing m args
  else if args[0]? = some "processClash".toList then return decodeProcessClash m args
  else if args[0]? = some "genStash".toList then return decodeGenStash m args
  else return { errorCode := some ERRCODE_ARG_FILE_FAIL }

def messageDecoder (cmd : Text) : Decoded :=
  match decode m cmd with
  | .ok res => res
  | .error _ => { errorCode := some ERRCODE_ARG_FILE_FAIL }

/-! ### What is decoded -/

variable {m} {cmd : Text}

private theorem errorCode_decodeImport {args : List Text} {res : Decoded} (h : decodeImport m args = .ok res) :
    res.errorCode = none := by
  simp only [decodeImport, Library.Fallible.bind_eq_ok] at h
  obtain ⟨_, -, _, -, _, -, _, -, _, -, ⟨⟩⟩ := h
  rfl

private theorem errorCode_decodeProcessDrawing {args : List Text} {res : Decoded} (h : decodeProcessDrawing m args = .ok res) :
    res.errorCode = none := by
  simp only [decodeProcessDrawing, Library.Fallible.bind_eq_ok] at h
  obtain ⟨_, -, _, -, _, -, _, -, _, -, _, -, _, -, ⟨⟩⟩ := h
  rfl

/-- The one error code of the decoder. -/
theorem errorCode_messageDecoder {n : ℕ} (h : (messageDecoder m cmd).errorCode = some n) : n = ERRCODE_ARG_FILE_FAIL := by
  unfold messageDecoder at h
  cases hres : decode m cmd with
  | error e =>
    rw [hres] at h
    exact (Option.some.inj h).symm
  | ok res =>
    rw [hres] at h
    dsimp only at h
    unfold decode at hres
    obtain ⟨replaced, -, hres⟩ := Library.Fallible.bind_eq_ok.1 hres
    dsimp only at hres
    split_ifs at hres
    · rw [errorCode_decodeImport hres] at h
      exact nomatch h
    · rw [errorCode_decodeProcessDrawing hres] at h
      exact nomatch h
    · cases hres
      exact nomatch h
    · cases hres
      exact nomatch h
    · cases hres
      exact (Option.some.inj h).symm

end Bouncer.Worker
