import ServerPages.Module.Layout
import ServerPages.Page.Parse

/-!
# Modules

A page becomes one module.  Its top-level code comes first; a function that writes the page
follows, and whatever the page does, that function reports a failure and closes the channel on
which the page sends metadata.
-/

namespace ServerPages

namespace Module

/-- Lines with their newlines. -/
def ofLines (lines : List String) : Text := lines.flatMap fun line => line.toList ++ ['\n']

/-- What stands before the top-level code. -/
def header : Text := ofLines ["# This file was generated by gosp2py.", "", "import gosp", ""]

/-- What stands between the top-level code and the body. -/
def bodyBegin : Text := ofLines [
  "",
  "",
  "def gosp_generate_page(gosp_req, gosp_out, gosp_meta):",
  "    \"\"\"Write the page to gosp_out and its metadata to gosp_meta.\"\"\"",
  "    # Provide functions for passing metadata back to the web server.",
  "    def gosp_set_http_status(status):",
  "        gosp.set_http_status(gosp_meta, status)",
  "",
  "    def gosp_set_mime_type(mime_type):",
  "        gosp.set_mime_type(gosp_meta, mime_type)",
  "",
  "    def gosp_set_header_field(key, value, replace=False):",
  "        gosp.set_header_field(gosp_meta, key, value, replace)",
  "",
  "    # Files are opened relative to the page's directory and never outside it.",
  "    def gosp_open(name, mode=\"r\", **kwargs):",
  "        base = gosp_req.base_dir if gosp_req is not None else None",
  "        return gosp.open(name, mode, base=base, **kwargs)",
  "",
  "    # Express the page in Python.  On failure report an internal server",
  "    # error.  In every case close the metadata channel.",
  "    try:",
  "        pass"]

/-- What stands behind the body. -/
def bodyEnd : Text := ofLines [
  "    except BaseException as gosp_exc:",
  "        gosp.report_failure(gosp_meta, gosp_exc)",
  "    finally:",
  "        gosp_meta.close()"]

/-- The text of the module that a layout makes. -/
def assemble (l : Layout) : Text :=
  header ++ l.top.flatten ++ bodyBegin ++ l.body.flatten ++ bodyEnd

end Module

/-- Why a page does not become a module. -/
inductive CompileError where
  | inclusion (e : IncludeError)
  /-- There are more `top` directives than the policy allows. -/
  | tooManyTop (count : Nat) (maximum : Int)
  | misplaced (m : Layout.Misplaced)
  deriving DecidableEq, Repr

/-- The error in words. -/
def CompileError.message : CompileError → Text
  | .inclusion e => e.message
  | .tooManyTop count maximum =>
    "Too many go:top blocks (".toList ++ Decimal.ofNat count ++ " versus a maximum of ".toList ++
      Decimal.ofInt maximum ++ [')']
  | .misplaced m => m.message

namespace Page

/-- What compiling a page gives: a module's text or an error, the layout as far as it was
made, and the notes left on the way. -/
structure Compiled where
  result : Except CompileError Text
  layout : Layout := {}
  notes : List Note := []

/-- Compiles a page. -/
def compile (e : Inclusion.Setting) (source : Text) : Compiled :=
  match parse e source with
  | (.error err, notes) => { result := .error (.inclusion err), notes := notes }
  | (.ok nodes, notes) =>
    let notes := notes ++ [⟨2, "Scanned ".toList ++ Decimal.ofNat nodes.length ++
      " page regions".toList⟩]
    match Layout.ofNodes nodes with
    | .error m => { result := .error (.misplaced m), notes := notes }
    | .ok layout =>
      if e.policy.maxTop < layout.top.length then
        { result := .error (.tooManyTop layout.top.length e.policy.maxTop), layout := layout,
          notes := notes }
      else { result := .ok (Module.assemble layout), layout := layout, notes := notes }

end Page

end ServerPages
