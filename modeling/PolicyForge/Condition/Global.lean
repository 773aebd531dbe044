import PolicyForge.Condition.Operator
import PolicyForge.Number.Instant
import PolicyForge.Number.Shortest

namespace PolicyForge.Condition

/-- A value as a caller gives it. -/
inductive Value where
  | text (content : String)
  | truth (value : Bool)
  | integer (value : Int)
  | number (value : Float)
  | instant (value : Number.Instant)

/-- The value as a policy holds it. -/
def Value.asText : Value → String
  | .text content => content
  | .truth value => if value then "true" else "false"
  | .integer value => toString value
  | .number value => Number.doubleText value.toBits
  | .instant value => value.text

/-- What the method of a shared key takes. -/
inductive GlobalForm where
  /-- Values, compared by the given operator unless the caller chooses another. -/
  | values (operator : Operator)
  /-- The key of a tag, and values. -/
  | tag
  /-- A truth value, which is true when it is left out. -/
  | flag
  deriving Repr, DecidableEq

/-- A shared key. -/
structure GlobalKey where
  method : String
  /-- The key, for a tag without its slash and placeholder. -/
  stem : String
  form : GlobalForm
  deriving Repr, DecidableEq

namespace GlobalKey

/-- The key as catalogs publish it. -/
def published (key : GlobalKey) : String :=
  match key.form with
  | .tag => key.stem ++ "/${TagKey}"
  | _ => key.stem

/-- A shared key for text. -/
def ofText (method stem : String) : GlobalKey :=
  ⟨method, stem, .values .stringLike⟩

/-- A shared key whose values are compared by a plain operator of the given kind. -/
def ofKind (method stem : String) (kind : OperatorKind) : GlobalKey :=
  ⟨method, stem, .values ⟨kind, none, false⟩⟩

/-- Every shared key. -/
def all : List GlobalKey :=
  [⟨"if_aws_called_via", "aws:CalledVia", .values ⟨.stringEquals, some .forAnyValue, false⟩⟩,
    ofText "if_aws_called_via_first" "aws:CalledViaFirst",
    ofText "if_aws_called_via_last" "aws:CalledViaLast",
    ofKind "if_aws_current_time" "aws:CurrentTime" .dateLessThanEquals,
    ofKind "if_aws_epoch_time" "aws:EpochTime" .dateLessThanEquals,
    ofKind "if_aws_multi_factor_auth_age" "aws:MultiFactorAuthAge" .numericLessThan,
    ofText "if_aws_principal_account" "aws:PrincipalAccount",
    ofKind "if_aws_principal_arn" "aws:PrincipalArn" .arnLike,
    ofText "if_aws_principal_org_id" "aws:PrincipalOrgID",
    ofText "if_aws_principal_org_paths" "aws:PrincipalOrgPaths",
    ofText "if_aws_principal_type" "aws:PrincipalType",
    ofText "if_aws_referer" "aws:Referer",
    ofText "if_aws_requested_region" "aws:RequestedRegion",
    ofText "if_aws_source_account" "aws:SourceAccount",
    ofKind "if_aws_source_arn" "aws:SourceArn" .arnLike,
    ofKind "if_aws_source_ip" "aws:SourceIp" .ipAddress,
    ofText "if_aws_source_vpc" "aws:SourceVpc",
    ofText "if_aws_source_vpce" "aws:SourceVpce",
    ofText "if_aws_tag_keys" "aws:TagKeys",
    ofKind "if_aws_token_issue_time" "aws:TokenIssueTime" .dateGreaterThanEquals,
    ofText "if_aws_user_agent" "aws:UserAgent",
    ofText "if_aws_userid" "aws:userid",
    ofText "if_aws_username" "aws:username",
    ofKind "if_aws_vpc_source_ip" "aws:VpcSourceIp" .ipAddress,
    ⟨"if_aws_principal_tag", "aws:PrincipalTag", .tag⟩,
    ⟨"if_aws_request_tag", "aws:RequestTag", .tag⟩,
    ⟨"if_aws_resource_tag", "aws:ResourceTag", .tag⟩,
    ⟨"if_aws_multi_factor_auth_present", "aws:MultiFactorAuthPresent", .flag⟩,
    ⟨"if_aws_secure_transport", "aws:SecureTransport", .flag⟩,
    ⟨"if_aws_via_aws_service", "aws:ViaAWSService", .flag⟩]

/-- The shared key that a method sets. -/
def ofMethod? (method : String) : Option GlobalKey :=
  all.find? (·.method == method)

end GlobalKey

end PolicyForge.Condition
