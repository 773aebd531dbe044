namespace PolicyForge.Catalog

/-- A resource type an action is said to act on. -/
structure ResourceRow where
  name : String
  required : Bool := false
  conditions : List String := []
  deriving Repr, DecidableEq

/-- An action. -/
structure ActionEntry where
  name : String
  description : String := ""
  url : String := ""
  accessLevel : String
  resourceTypes : List ResourceRow := []
  conditions : List String := []
  dependentActions : List String := []
  deriving Repr, DecidableEq

/-- A resource type. -/
structure ResourceEntry where
  name : String
  url : String := ""
  arn : Option String := none
  conditionKeys : List String := []
  deriving Repr, DecidableEq

/-- A condition key. -/
structure KeyEntry where
  key : String
  description : String := ""
  url : String := ""
  valueType : Option String := none
  deriving Repr, DecidableEq

/-- The catalog of one service. -/
structure Record where
  name : String
  servicePrefix : String
  url : String := ""
  actions : List ActionEntry := []
  resourceTypes : List ResourceEntry := []
  conditionKeys : List KeyEntry := []
  deriving Repr, DecidableEq

end PolicyForge.Catalog
