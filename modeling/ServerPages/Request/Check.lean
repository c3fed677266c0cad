import ServerPages.Json.Basic
import ServerPages.Number.Written
import ServerPages.Request.Basic

/-!
# Checking the shape of a message

A JSON value is checked against the shape of an envelope.  Every field may be sent under its wire
name or under its page name, the wire name first; a null counts as absent and unknown members are
ignored.  All faults are listed, in the order of the fields.

Integers and flags are also accepted in the other spellings that clients use: digits in a text, a
real without fraction, `yes` and `no`.
-/

namespace ServerPages

/-- The kinds of fault in a message's shape. -/
inductive ShapeFault where
  | modelType
  | textType
  | textUnicode
  | tableType
  | intType
  | intParsing
  | intParsingSize
  | intFromReal
  | finiteNumber
  | flagType
  | flagParsing
  deriving DecidableEq, Repr

/-- The name of a kind of fault. -/
def ShapeFault.name : ShapeFault → Text
  | .modelType => "model_type".toList
  | .textType => "string_type".toList
  | .textUnicode => "string_unicode".toList
  | .tableType => "dict_type".toList
  | .intType => "int_type".toList
  | .intParsing => "int_parsing".toList
  | .intParsingSize => "int_parsing_size".toList
  | .intFromReal => "int_from_float".toList
  | .finiteNumber => "finite_number".toList
  | .flagType => "bool_type".toList
  | .flagParsing => "bool_parsing".toList

/-- A fault and the names that lead to it from the top of the message. -/
structure ShapeIssue where
  place : List Text
  fault : ShapeFault
  deriving DecidableEq, Repr

/-- A value as far as it could be made out, and what is wrong with its source. -/
structure Checked (α : Type) where
  value : α
  issues : List ShapeIssue := []

namespace Checked

/-- The issues of a part, seen from the whole. -/
def within (name : Text) (c : Checked α) : Checked α :=
  { c with issues := c.issues.map fun i => { i with place := name :: i.place } }

/-- A value with one fault in its own place. -/
def bad (value : α) (fault : ShapeFault) : Checked α := ⟨value, [⟨[], fault⟩]⟩

/-- The value, if nothing is wrong. -/
def toExcept (c : Checked α) : Except (List ShapeIssue) α :=
  if c.issues.isEmpty then .ok c.value else .error c.issues

end Checked

namespace Shape

/-! ### Integers and flags -/

/-- The integer that a text in a message writes. -/
def intOfText (s : Text) : Except ShapeFault Int :=
  (Written.integer s).mapError fun
    | .malformed => .intParsing
    | .tooLong => .intParsingSize

/-- The least integer too large for a machine word: `2 ^ 63`. -/
def wordBound : Int := 0x8000000000000000

/-- The integer that a real of a message stands for: it must have no fraction and fit a machine
word. -/
def intOfReal (r : Binary64) : Except ShapeFault Int :=
  match r with
  | .nan => .error .finiteNumber
  | .infinite _ => .error .finiteNumber
  | r =>
    match r.toInt? with
    | none => .error .intFromReal
    | some n => if -wordBound < n && n < wordBound then .ok n else .error .intParsingSize

/-- The flag that an integer stands for. -/
def flagOfInt (n : Int) : Except ShapeFault Bool :=
  if n = 0 then .ok false else if n = 1 then .ok true else .error .flagParsing

/-! ### Fields -/

/-- Checks a text. -/
def text (j : Json) : Checked Text :=
  match j with
  | .string s =>
    match Letter.text? s with
    | some t => ⟨t, []⟩
    | none => .bad [] .textUnicode
  | _ => .bad [] .textType

/-- Checks an integer. -/
def int (j : Json) : Checked Int :=
  let result : Except ShapeFault Int := match j with
    | .int n => .ok n
    | .bool b => .ok (if b then 1 else 0)
    | .real r => intOfReal r
    | .string s =>
      match Letter.text? s with
      | some t => intOfText t
      | none => .error .textUnicode
    | _ => .error .intType
  match result with
  | .ok n => ⟨n, []⟩
  | .error fault => .bad 0 fault

/-- Checks a flag. -/
def flag (j : Json) : Checked Bool :=
  let result : Except ShapeFault Bool := match j with
    | .bool b => .ok b
    | .int n => if -wordBound ≤ n && n < wordBound then flagOfInt n else .error .flagType
    | .real r =>
      match intOfReal r with
      | .ok n => flagOfInt n
      | .error _ => .error .flagType
    | .string s =>
      match Letter.text? s with
      | some t => (Written.flag? t).elim (.error .flagParsing) .ok
      | none => .error .textUnicode
    | _ => .error .flagType
  match result with
  | .ok b => ⟨b, []⟩
  | .error fault => .bad false fault

/-- Checks one entry of a table. -/
def entry (m : List Letter × Json) : Checked (Text × Text) :=
  let name := Letter.shown m.1
  let key : List ShapeIssue :=
    if (Letter.text? m.1).isSome then [] else [⟨[name, "[key]".toList], .textUnicode⟩]
  let value := (text m.2).within name
  ⟨(name, value.value), key ++ value.issues⟩

/-- Checks a table of texts. -/
def table (j : Json) : Checked Table :=
  match j with
  | .object members =>
    let entries := members.map entry
    ⟨entries.map (·.value), entries.flatMap (·.issues)⟩
  | _ => .bad [] .tableType

/-- Checks the member sent under a wire name or else under a page name; an absent member takes
the default. -/
def field (check : Json → Checked α) (default : α) (wire page : Text)
    (members : List (List Letter × Json)) : Checked α :=
  match Json.member? wire members with
  | some j => (check j).within wire
  | none =>
    match Json.member? page members with
    | some j => (check j).within page
    | none => ⟨default, []⟩

/-- The members of an object that are not null. -/
def present (members : List (List Letter × Json)) : List (List Letter × Json) :=
  members.filter fun m => !m.2.isNull

/-- Checks a request. -/
def request (j : Json) : Checked Request :=
  match j with
  | .object all =>
    let ms := present all
    let scheme := field text [] "Scheme".toList "scheme".toList ms
    let localHostname := field text [] "LocalHostname".toList "local_hostname".toList ms
    let port := field int 0 "Port".toList "port".toList ms
    let uri := field text [] "Uri".toList "uri".toList ms
    let pathInfo := field text [] "PathInfo".toList "path_info".toList ms
    let queryArgs := field text [] "QueryArgs".toList "query_args".toList ms
    let url := field text [] "Url".toList "url".toList ms
    let method := field text [] "Method".toList "method".toList ms
    let requestLine := field text [] "RequestLine".toList "request_line".toList ms
    let requestTime := field int 0 "RequestTime".toList "request_time".toList ms
    let remoteHostname := field text [] "RemoteHostname".toList "remote_hostname".toList ms
    let remoteIp := field text [] "RemoteIp".toList "remote_ip".toList ms
    let filename := field text [] "Filename".toList "filename".toList ms
    let postData := field table [] "PostData".toList "post_data".toList ms
    let getData := field table [] "GetData".toList "get_data".toList ms
    let headerData := field table [] "HeaderData".toList "header_data".toList ms
    let adminEmail := field text [] "AdminEmail".toList "admin_email".toList ms
    let environment := field table [] "Environment".toList "environment".toList ms
    ⟨{ scheme := scheme.value, localHostname := localHostname.value, port := port.value,
       uri := uri.value, pathInfo := pathInfo.value, queryArgs := queryArgs.value,
       url := url.value, method := method.value, requestLine := requestLine.value,
       requestTime := requestTime.value, remoteHostname := remoteHostname.value,
       remoteIp := remoteIp.value, filename := filename.value, postData := postData.value,
       getData := getData.value, headerData := headerData.value,
       adminEmail := adminEmail.value, environment := environment.value },
     scheme.issues ++ localHostname.issues ++ port.issues ++ uri.issues ++ pathInfo.issues ++
       queryArgs.issues ++ url.issues ++ method.issues ++ requestLine.issues ++
       requestTime.issues ++ remoteHostname.issues ++ remoteIp.issues ++ filename.issues ++
       postData.issues ++ getData.issues ++ headerData.issues ++ adminEmail.issues ++
       environment.issues⟩
  | _ => .bad {} .modelType

/-- Checks an envelope. -/
def envelope (j : Json) : Checked Envelope :=
  match j with
  | .object all =>
    let ms := present all
    let userData := field request {} "UserData".toList "user_data".toList ms
    let getPid := field flag false "GetPID".toList "get_pid".toList ms
    let exitNow := field flag false "ExitNow".toList "exit_now".toList ms
    ⟨⟨userData.value, getPid.value, exitNow.value⟩,
      userData.issues ++ getPid.issues ++ exitNow.issues⟩
  | _ => .bad {} .modelType

end Shape

end ServerPages
