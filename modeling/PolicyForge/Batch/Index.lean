import PolicyForge.Batch.Report

namespace PolicyForge.Batch

/-- How an index refers to the modules. -/
inductive IndexStyle where
  /-- By name, for an index that lies beside their files. -/
  | beside
  /-- By including their files from the directory of the build. -/
  | included
  deriving Repr, DecidableEq

/-- The declaration of a module. -/
def declaration (style : IndexStyle) (generated : Generated) : List String :=
  "#[allow(clippy::pedantic, clippy::nursery)]" :: match style with
    | .beside => ["pub mod " ++ generated.moduleName ++ ";"]
    | .included => Source.block ("pub mod " ++ generated.moduleName)
      ["include!(concat!(env!(\"OUT_DIR\"), \"/" ++ generated.fileName ++ "\"));"]

/-- The line that gives a module's type to the users of the index. -/
def reexport (generated : Generated) : String :=
  "pub use " ++ generated.moduleName ++ "::" ++ generated.typeName ++ ";"

namespace Report

/-- The generated modules in the order of their service prefixes. -/
def indexed (report : Report) : List Generated :=
  report.generated.mergeSort fun a b => decide (a.servicePrefix ≤ b.servicePrefix)

/-- The text of the index. -/
def index (report : Report) (style : IndexStyle) : String :=
  let modules := report.indexed
  Source.unlines ([Source.marker, ""] ++ modules.flatMap (declaration style) ++
    (if modules.isEmpty then [] else [""]) ++ modules.map reexport)

end Report

end PolicyForge.Batch
