import PolicyForge.Bundled.GroundStation
import PolicyForge.Bundled.S3
import PolicyForge.Bundled.Widgets
import PolicyForge.Service.Provider
import PolicyForge.Service.Validation

namespace PolicyForge.Bundled

/-- The bundled catalogs. -/
def catalogs : List Catalog.Record :=
  [widgets, s3, groundStation]

/-- The provider of the bundled catalog with the given prefix. -/
def provider? (servicePrefix : String) : Option Provider := do
  let record ← catalogs.find? (·.servicePrefix == servicePrefix)
  let service ← (Service.ofRecord record).toOption
  return service.provider

end PolicyForge.Bundled
