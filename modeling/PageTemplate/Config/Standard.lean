import PageTemplate.Config.Schema
set_option autoImplicit false
/-!
The configuration of a site: its schema, and the values that hold where nothing else is said.
-/
namespace PageTemplate.Config

def templatingSchema : Schema :=
  .object [
    (text "template_dir", .text 1), (text "customize_dir", .text 1), (text "output_dir", .text 1),
    (text "max_passes", .whole 1), (text "max_conditional_passes", .whole 1),
    (text "expression_timeout_seconds", .above 0), (text "recent_write_ttl_seconds", .atLeast 0),
    (text "base_template_name", .text 0), (text "entry_marker", .text 0),
    (text "entry_priority", .texts), (text "doctype", .text 0)]
    (["template_dir", "customize_dir", "max_passes", "max_conditional_passes",
      "expression_timeout_seconds"].map text) true

def loggingSchema : Schema :=
  .object [
    (text "level", .choice (["DEBUG", "INFO", "WARNING", "ERROR", "CRITICAL", "debug", "info",
      "warning", "error", "critical"].map text)),
    (text "file", .optionalText)] [] true

def schema : Schema :=
  .object [(text "templating", templatingSchema), (text "logging", loggingSchema)]
    [text "templating"] false

def entry (key : String) (v : Value) : Value × Value := (.str (text key), v)

def words (ws : List String) : Value := .list (ws.map fun w => .str (text w))

/-- Three halves, in seconds. -/
def shortTime : Value := .number (.float 1.5)

def defaults : Entries := [
  entry "templating" (.map [
    entry "template_dir" (.str (text "templates")), entry "customize_dir" (.str (text "customize")),
    entry "output_dir" (.str (text "dist")), entry "max_passes" (.int 10),
    entry "max_conditional_passes" (.int 20), entry "expression_timeout_seconds" shortTime,
    entry "recent_write_ttl_seconds" shortTime,
    entry "base_template_name" (.str (text "base.html")),
    entry "entry_marker" (.str (text "<!-- @entry -->")),
    entry "entry_priority" (words ["index.html", "main.html", "home.html"]),
    entry "doctype" (.str (text "<!DOCTYPE html>"))]),
  entry "logging" (.map [entry "level" (.str (text "INFO")), entry "file" .null])]

end PageTemplate.Config
