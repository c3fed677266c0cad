import ServerPages.Config.VariableFile
import ServerPages.Number.Written
import ServerPages.Path.Walk
import ServerPages.Text.Case

/-!
# Settings

The settings of the commands come from environment variables and from a variable file in the
directory at hand; the environment wins.  The name of a variable is that of its setting behind a
common beginning, in any case.  Each setting is checked by itself, and all faults are listed in
the order of the settings.
-/

namespace ServerPages

/-- The settings of the commands. -/
structure Settings where
  /-- The number of `top` directives a page may have. -/
  maxTop : Int := 1
  /-- How deep inclusions may nest. -/
  maxIncludeDepth : Int := 10
  /-- The specification of the modules that pages may import. -/
  allowedImports : Text := "ALL".toList
  /-- Seconds without a connection before the server exits; 0 for never. -/
  maxIdle : Binary64 := Binary64.ofInt 300
  /-- The form in which headers are written. -/
  httpHeaders : Text := "structured".toList
  /-- Seconds for a client to send its request. -/
  requestTimeout : Binary64 := Binary64.ofInt 10
  /-- The number of events that may wait before the page does. -/
  metadataCapacity : Int := 5
  /-- Whether each page runs in its own directory. -/
  changeDirectory : Bool := false
  /-- Seconds between looks at whether the server is to stop. -/
  pollInterval : Binary64 := Binary64.nearest false 1 2
  deriving DecidableEq, Repr

/-- The kinds of fault in the text of a setting. -/
inductive SettingFault where
  | integerMalformed
  | integerTooLong
  | realMalformed
  | flagMalformed
  | noChoice
  /-- Below the least value. -/
  | tooSmall
  /-- Not above a bound. -/
  | notAbove
  deriving DecidableEq, Repr

/-- The name of a kind of fault. -/
def SettingFault.name : SettingFault → Text
  | .integerMalformed => "int_parsing".toList
  | .integerTooLong => "int_parsing_size".toList
  | .realMalformed => "float_parsing".toList
  | .flagMalformed => "bool_parsing".toList
  | .noChoice => "literal_error".toList
  | .tooSmall => "greater_than_equal".toList
  | .notAbove => "greater_than".toList

/-- A fault in the setting of a name. -/
structure SettingIssue where
  name : Text
  fault : SettingFault
  deriving DecidableEq, Repr

namespace Settings

/-! ### Checks -/

/-- A setting that is an integer of at least `least`. -/
def integer (least : Int) (s : Text) : Except SettingFault Int :=
  match Written.integer s with
  | .error .malformed => .error .integerMalformed
  | .error .tooLong => .error .integerTooLong
  | .ok n => if least ≤ n then .ok n else .error .tooSmall

/-- A setting that is a number. -/
def real (s : Text) : Except SettingFault Binary64 :=
  match Written.real? s with
  | none => .error .realMalformed
  | some r => .ok r

/-- A setting that is a number of at least zero. -/
def notNegative (s : Text) : Except SettingFault Binary64 :=
  (real s).bind fun r => if r = .nan ∨ r.isNegative then .error .tooSmall else .ok r

/-- A setting that is a number above zero. -/
def positive (s : Text) : Except SettingFault Binary64 :=
  (real s).bind fun r =>
    if r = .nan ∨ r.isNegative ∨ r.isZero then .error .notAbove else .ok r

/-- A setting that is a flag. -/
def flag (s : Text) : Except SettingFault Bool :=
  match Written.flag? s with
  | none => .error .flagMalformed
  | some b => .ok b

/-- The names of the forms of a header. -/
def headerNames : List Text := ["structured", "mod_gosp", "raw", "none"].map String.toList

/-- A setting that is one of some words. -/
def choice (words : List Text) (s : Text) : Except SettingFault Text :=
  if words.contains s then .ok s else .error .noChoice

/-! ### Reading -/

/-- What the names of all variables begin with. -/
def opening : Text := "gosp_".toList

/-- The text of a setting among variables: that of the last variable of its name, if it has
one. -/
def text? (vars : VariableFile.Variables) (name : Text) : Option Text :=
  (vars.reverse.find? fun v => Text.lower v.1 = opening ++ name).bind (·.2)

/-- A setting, and what is wrong with its text. -/
structure Reading (α : Type) where
  value : α
  issue : Option SettingIssue := none

/-- Reads a setting. -/
def reading {α : Type} (vars : VariableFile.Variables) (name : String)
    (check : Text → Except SettingFault α) (default : α) : Reading α :=
  match text? vars name.toList with
  | none => ⟨default, none⟩
  | some s =>
    match check s with
    | .ok value => ⟨value, none⟩
    | .error fault => ⟨default, some ⟨name.toList, fault⟩⟩

/-- The settings that variables give. -/
def ofVariables (vars : VariableFile.Variables) : Except (List SettingIssue) Settings :=
  let d : Settings := {}
  let maxTop := reading vars "max_top" (integer 0) d.maxTop
  let maxIncludeDepth := reading vars "max_include_depth" (integer 0) d.maxIncludeDepth
  let allowedImports := reading vars "allowed_imports" .ok d.allowedImports
  let maxIdle := reading vars "max_idle" notNegative d.maxIdle
  let httpHeaders := reading vars "http_headers" (choice headerNames) d.httpHeaders
  let requestTimeout := reading vars "request_timeout" positive d.requestTimeout
  let metadataCapacity := reading vars "metadata_capacity" (integer 1) d.metadataCapacity
  let changeDirectory := reading vars "change_directory" flag d.changeDirectory
  let pollInterval := reading vars "poll_interval" positive d.pollInterval
  let issues := [maxTop.issue, maxIncludeDepth.issue, allowedImports.issue, maxIdle.issue,
    httpHeaders.issue, requestTimeout.issue, metadataCapacity.issue, changeDirectory.issue,
    pollInterval.issue].filterMap id
  if issues.isEmpty then
    .ok { maxTop := maxTop.value, maxIncludeDepth := maxIncludeDepth.value,
          allowedImports := allowedImports.value, maxIdle := maxIdle.value,
          httpHeaders := httpHeaders.value, requestTimeout := requestTimeout.value,
          metadataCapacity := metadataCapacity.value, changeDirectory := changeDirectory.value,
          pollInterval := pollInterval.value }
  else .error issues

/-- Why there are no settings. -/
inductive Failure where
  | issues (is : List SettingIssue)
  | decoding (fault : Utf8.Fault)
  deriving DecidableEq, Repr

/-- The name of the variable file. -/
def fileName : Text := ".env".toList

/-- The variables of the file in a directory, if it is there. -/
def fileVariables (tree : FileTree) (cwd : Location) (environment : List (Text × Text)) :
    Except Utf8.Fault VariableFile.Variables :=
  match tree.read cwd fileName with
  | .error _ => .ok []
  | .ok bytes =>
    (Utf8.decode bytes).map fun s => VariableFile.read environment (Text.unifyNewlines s)

/-- The settings that hold in a directory under an environment. -/
def load (tree : FileTree) (cwd : Location) (environment : List (Text × Text)) :
    Except Failure Settings :=
  match fileVariables tree cwd environment with
  | .error fault => .error (.decoding fault)
  | .ok vars =>
    (ofVariables (vars ++ environment.map fun (name, value) => (name, some value))).mapError
      .issues

end Settings

end ServerPages
