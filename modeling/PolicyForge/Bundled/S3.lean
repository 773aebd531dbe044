import PolicyForge.Catalog.Record

namespace PolicyForge.Bundled

/-- The actions. -/
def s3Actions : List Catalog.ActionEntry := [
  { name := "GetObject"
    accessLevel := "Read"
    resourceTypes := [{ name := "object" }]
    conditions :=
      ["s3:ExistingObjectTag/<key>",
        "s3:authType",
        "s3:signatureAge",
        "s3:x-amz-content-sha256"] },
  { name := "PutObject"
    accessLevel := "Write"
    resourceTypes := [{ name := "object" }]
    conditions :=
      ["s3:RequestObjectTag/<key>",
        "s3:RequestObjectTagKeys",
        "s3:authType",
        "s3:x-amz-acl",
        "s3:x-amz-content-sha256"] },
  { name := "ListBucket"
    accessLevel := "List"
    resourceTypes := [{ name := "bucket" }]
    conditions := ["s3:prefix", "s3:max-keys", "s3:authType"] },
  { name := "PutBucketPolicy"
    accessLevel := "Permissions management"
    resourceTypes := [{ name := "bucket" }]
    conditions := ["s3:authType"] },
  { name := "PutObjectTagging"
    accessLevel := "Tagging"
    resourceTypes := [{ name := "object" }]
    conditions :=
      ["s3:ExistingObjectTag/<key>",
        "s3:RequestObjectTag/<key>",
        "s3:RequestObjectTagKeys"] },
  { name := "ListAllMyBuckets"
    accessLevel := "List"
    conditions := ["s3:authType"] }]

/-- The resource types. -/
def s3Resources : List Catalog.ResourceEntry := [
  { name := "bucket"
    arn := "arn:${Partition}:s3:::${BucketName}"
    conditionKeys := ["aws:ResourceTag/${TagKey}"] },
  { name := "object"
    arn := "arn:${Partition}:s3:::${BucketName}/${ObjectName}" },
  { name := "accesspoint"
    arn := "arn:${Partition}:s3:${Region}:${Account}:accesspoint/${AccessPointName}" }]

/-- The condition keys. -/
def s3Keys : List Catalog.KeyEntry := [
  { key := "aws:ResourceTag/${TagKey}"
    valueType := "String" },
  { key := "s3:ExistingObjectTag/<key>"
    valueType := "String" },
  { key := "s3:RequestObjectTag/<key>"
    valueType := "String" },
  { key := "s3:RequestObjectTagKeys"
    valueType := "ArrayOfString" },
  { key := "s3:authType"
    valueType := "String" },
  { key := "s3:signatureAge"
    valueType := "Numeric" },
  { key := "s3:x-amz-acl"
    valueType := "String" },
  { key := "s3:x-amz-content-sha256"
    valueType := "String" },
  { key := "s3:prefix"
    valueType := "String" },
  { key := "s3:max-keys"
    valueType := "Numeric" }]

/-- The catalog. -/
def s3 : Catalog.Record :=
  { name := "s3"
    servicePrefix := "s3"
    actions := s3Actions
    resourceTypes := s3Resources
    conditionKeys := s3Keys }

end PolicyForge.Bundled
