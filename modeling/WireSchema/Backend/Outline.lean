import WireSchema.Backend.Basic

/-!
# The outline backend

A backend without a target language: a struct is rendered as its name, its version and the declared
names of its fields on one line. It shows the structs of a unit at a glance, and uses the defaults
of a backend wherever there is one.
-/

namespace WireSchema.Backend

/-- The line of a struct. A field of kind `uuid` needs a symbol, so that there is something to
import. -/
def outlineDeclaration (m : MessageAt) (s : StructAt) : Declaration :=
  ⟨(s.fields.filter fun field => field.type = .uuid).map fun _ => ⟨"plain", "Uuid"⟩,
    .ok (s.name ++ "@" ++ toString m.version ++ " " ++
      ",".intercalate (s.fields.map (·.name)) ++ "\n")⟩

/-- The outline backend. -/
def outline : Backend where
  name := "plain"
  fileExtension := "txt"
  declare := outlineDeclaration
  manifestFile := "index.txt"
  manifest := " ".intercalate

end WireSchema.Backend
