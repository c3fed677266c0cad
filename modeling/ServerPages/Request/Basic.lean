import ServerPages.Path.Basic
import ServerPages.Text.Value

/-!
# Requests

A request is what the web server tells a page about one visit.  Many of its fields come straight
from the client.  An envelope wraps a request on the wire and may instead ask the page server
for its process number or ask it to end.
-/

namespace ServerPages

/-- A table of texts in the order in which it was sent. -/
abbrev Table := List (Text × Text)

/-- What a page is told about one visit. -/
structure Request where
  scheme : Text := []
  localHostname : Text := []
  port : Int := 0
  /-- The path portion of the address. -/
  uri : Text := []
  /-- The text that follows the page's file name. -/
  pathInfo : Text := []
  queryArgs : Text := []
  url : Text := []
  method : Text := []
  requestLine : Text := []
  /-- Nanoseconds since the epoch. -/
  requestTime : Int := 0
  remoteHostname : Text := []
  remoteIp : Text := []
  /-- The local file name of the page. -/
  filename : Text := []
  postData : Table := []
  getData : Table := []
  headerData : Table := []
  adminEmail : Text := []
  environment : Table := []
  deriving DecidableEq, Repr, Inhabited

/-- What arrives on a connection. -/
structure Envelope where
  request : Request := {}
  /-- Asks for the server's process number. -/
  getPid : Bool := false
  /-- Asks the server to end. -/
  exitNow : Bool := false
  deriving DecidableEq, Repr, Inhabited

namespace Request

/-- The directory that holds the requested page, if one is named, seen from the directory
`cwd`. -/
def baseDir? (cwd : Text) (r : Request) : Option Text :=
  if r.filename = [] then none else some (Path.parent (Path.absolute cwd r.filename))

/-- A table of texts as a value. -/
def tableValue (t : Table) : Value := .table (t.map fun (k, v) => (k, .text v))

/-- The fields of a request, by the names that pages use. -/
def fields (r : Request) : List (Text × Value) :=
  [("scheme".toList, .text r.scheme),
   ("local_hostname".toList, .text r.localHostname),
   ("port".toList, .int r.port),
   ("uri".toList, .text r.uri),
   ("path_info".toList, .text r.pathInfo),
   ("query_args".toList, .text r.queryArgs),
   ("url".toList, .text r.url),
   ("method".toList, .text r.method),
   ("request_line".toList, .text r.requestLine),
   ("request_time".toList, .int r.requestTime),
   ("remote_hostname".toList, .text r.remoteHostname),
   ("remote_ip".toList, .text r.remoteIp),
   ("filename".toList, .text r.filename),
   ("post_data".toList, tableValue r.postData),
   ("get_data".toList, tableValue r.getData),
   ("header_data".toList, tableValue r.headerData),
   ("admin_email".toList, .text r.adminEmail),
   ("environment".toList, tableValue r.environment)]

/-- The value of a field, the directory of the page included. -/
def field? (cwd : Text) (r : Request) (name : Text) : Option Value :=
  if name = "base_dir".toList then
    some (match r.baseDir? cwd with
      | none => .none
      | some dir => .text dir)
  else (r.fields.find? fun f => f.1 = name).map (·.2)

/-- A request in words: every field with its value, quoted. -/
def describe (r : Request) : Text :=
  "RequestData(".toList ++
    Text.joinWith ", ".toList (r.fields.map fun (name, v) => name ++ '=' :: v.quoted) ++ [')']

end Request

end ServerPages
