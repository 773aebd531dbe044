namespace PolicyForge.Identifier

/-- The identifiers taken so far, the latest first. -/
structure Scope where
  taken : List String := []
  deriving Repr, DecidableEq

namespace Scope

/-- The scope in which exactly the given identifiers are taken. -/
def ofList (reserved : List String) : Scope :=
  ⟨reserved⟩

/-- Whether an identifier is taken. -/
def contains (scope : Scope) (ident : String) : Bool :=
  scope.taken.contains ident

/-- The scope with `ident` taken as well. -/
def reserve (scope : Scope) (ident : String) : Scope :=
  if scope.contains ident then scope else ⟨ident :: scope.taken⟩

/-- The least number from `suffix` on that makes `base` free when it is appended, looking at `tries`
numbers. -/
def freeSuffix (scope : Scope) (base : String) : (tries suffix : Nat) → Nat
  | 0, suffix => suffix
  | tries + 1, suffix =>
    if scope.contains (base ++ toString suffix) then freeSuffix scope base tries (suffix + 1)
    else suffix

/-- An identifier that was given out, and whether it had to differ from the one asked for. -/
structure Claim where
  ident : String
  collided : Bool
  deriving Repr, DecidableEq

/-- Take `base`, or if it is taken the first free one of `base2`, `base3`, and so on. A scope of `n`
identifiers cannot hold `n + 1` different candidates, so as many tries always find one. -/
def allocate (scope : Scope) (base : String) : Claim × Scope :=
  if scope.contains base then
    let ident := base ++ toString (scope.freeSuffix base (scope.taken.length + 1) 2)
    (⟨ident, true⟩, scope.reserve ident)
  else
    (⟨base, false⟩, scope.reserve base)

end Scope

end PolicyForge.Identifier
