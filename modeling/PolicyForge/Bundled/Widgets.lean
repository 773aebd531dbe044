import PolicyForge.Catalog.Record

namespace PolicyForge.Bundled

/-- The actions. -/
def widgetsActions : List Catalog.ActionEntry := [
  { name := "MakeWidget"
    description := "Grants permission to make a widget"
    url := "https://docs.example.com/widgets/API_MakeWidget.html"
    accessLevel := "Write"
    resourceTypes := [{ name := "Widget", required := true }]
    conditions := ["aws:RequestTag/${TagKey}", "aws:TagKeys", "widgets:Color"]
    dependentActions := ["widgets:TagWidget"] },
  { name := "DescribeWidget"
    description := "Grants permission to describe a widget"
    url := "https://docs.example.com/widgets/API_DescribeWidget.html"
    accessLevel := "Read"
    resourceTypes := [{ name := "Widget", required := true }] },
  { name := "ListWidgets"
    description := "Grants permission to list widgets"
    url := "https://docs.example.com/widgets/API_ListWidgets.html"
    accessLevel := "List" },
  { name := "ShipWidget"
    description := "Grants permission to ship a widget to a depot"
    url := "https://docs.example.com/widgets/API_ShipWidget.html"
    accessLevel := "Write"
    resourceTypes :=
      [{ name := "Widget", required := true, conditions := ["widgets:Weight", "widgets:ShipBy"] },
        { name := "Depot" }]
    conditions := ["widgets:Fragile", "widgets:SourceIp"] },
  { name := "TagWidget"
    description := "Grants permission to tag a widget"
    url := "https://docs.example.com/widgets/API_TagWidget.html"
    accessLevel := "Tagging"
    resourceTypes := [{ name := "Widget", required := true }]
    conditions := ["aws:RequestTag/${TagKey}", "aws:TagKeys"] },
  { name := "PutWidgetPolicy"
    description := "Grants permission to attach a resource policy to a widget"
    url := "https://docs.example.com/widgets/API_PutWidgetPolicy.html"
    accessLevel := "Permissions management"
    resourceTypes := [{ name := "Widget", required := true }]
    conditions := ["widgets:PolicyArn"] }]

/-- The resource types. -/
def widgetsResources : List Catalog.ResourceEntry := [
  { name := "Widget"
    url := "https://docs.example.com/widgets/widget.html"
    arn := "arn:${Partition}:widgets:${Region}:${Account}:widget/${Id}"
    conditionKeys := ["aws:ResourceTag/${TagKey}", "widgets:Color"] },
  { name := "Depot"
    url := "https://docs.example.com/widgets/depot.html"
    arn := "arn:${Partition}:widgets::${Account}:depot/${DepotName}" },
  { name := "Catalog"
    arn := "arn:aws:widgets:::catalog/public" }]

/-- The condition keys. -/
def widgetsKeys : List Catalog.KeyEntry := [
  { key := "aws:RequestTag/${TagKey}"
    description := "Filters access by the tags that are passed in the request"
    url := "https://docs.aws.amazon.com/IAM/latest/UserGuide/" ++
      "reference_policies_condition-keys.html#condition-keys-requesttag"
    valueType := "String" },
  { key := "aws:ResourceTag/${TagKey}"
    description := "Filters access by the tags associated with the resource"
    url := "https://docs.aws.amazon.com/IAM/latest/UserGuide/" ++
      "reference_policies_condition-keys.html#condition-keys-resourcetag"
    valueType := "String" },
  { key := "aws:TagKeys"
    description := "Filters access by the tag keys that are passed in the request"
    url := "https://docs.aws.amazon.com/IAM/latest/UserGuide/" ++
      "reference_policies_condition-keys.html#condition-keys-tagkeys"
    valueType := "ArrayOfString" },
  { key := "widgets:Color"
    description := "Filters access by the color of the widget"
    valueType := "String" },
  { key := "widgets:Weight"
    description := "Filters access by the weight of the widget in grams"
    valueType := "Numeric" },
  { key := "widgets:ShipBy"
    description := "Filters access by the latest shipping date"
    valueType := "Date" },
  { key := "widgets:Fragile"
    description := "Filters access by whether the widget is fragile"
    valueType := "Bool" },
  { key := "widgets:SourceIp"
    description := "Filters access by the address of the depot the request originates from"
    valueType := "IPAddress" },
  { key := "widgets:PolicyArn"
    description := "Filters access by the ARN of the attached policy"
    valueType := "ARN" }]

/-- The catalog. -/
def widgets : Catalog.Record :=
  { name := "widgets"
    servicePrefix := "widgets"
    url := "https://docs.example.com/service-authorization/list_widgets.html"
    actions := widgetsActions
    resourceTypes := widgetsResources
    conditionKeys := widgetsKeys }

end PolicyForge.Bundled
