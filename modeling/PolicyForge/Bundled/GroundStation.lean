import PolicyForge.Catalog.Record

namespace PolicyForge.Bundled

/-- The actions. -/
def groundStationActions : List Catalog.ActionEntry := [
  { name := "CancelContact"
    description := "Grants permission to cancel a contact"
    url := "https://docs.aws.amazon.com/ground-station/latest/APIReference/" ++
      "API_CancelContact.html"
    accessLevel := "Write"
    resourceTypes := [{ name := "Contact", required := true }] },
  { name := "CreateConfig"
    description := "Grants permission to create a configuration"
    url := "https://docs.aws.amazon.com/ground-station/latest/APIReference/API_CreateConfig.html"
    accessLevel := "Write"
    conditions := ["aws:RequestTag/${TagKey}", "aws:TagKeys"] },
  { name := "CreateDataflowEndpointGroup"
    description := "Grants permission to create a data flow endpoint group"
    url := "https://docs.aws.amazon.com/ground-station/latest/APIReference/" ++
      "API_CreateDataflowEndpointGroup.html"
    accessLevel := "Write"
    conditions := ["aws:RequestTag/${TagKey}", "aws:TagKeys"] },
  { name := "CreateMissionProfile"
    description := "Grants permission to create a mission profile"
    url := "https://docs.aws.amazon.com/ground-station/latest/APIReference/" ++
      "API_CreateMissionProfile.html"
    accessLevel := "Write"
    conditions := ["aws:RequestTag/${TagKey}", "aws:TagKeys"] },
  { name := "DeleteConfig"
    description := "Grants permission to delete a config"
    url := "https://docs.aws.amazon.com/ground-station/latest/APIReference/API_DeleteConfig.html"
    accessLevel := "Write"
    resourceTypes := [{ name := "Config", required := true }] },
  { name := "DeleteDataflowEndpointGroup"
    description := "Grants permission to delete a data flow endpoint group"
    url := "https://docs.aws.amazon.com/ground-station/latest/APIReference/" ++
      "API_DeleteDataflowEndpointGroup.html"
    accessLevel := "Write"
    resourceTypes := [{ name := "DataflowEndpointGroup", required := true }] },
  { name := "DeleteMissionProfile"
    description := "Grants permission to delete a mission profile"
    url := "https://docs.aws.amazon.com/ground-station/latest/APIReference/" ++
      "API_DeleteMissionProfile.html"
    accessLevel := "Write"
    resourceTypes := [{ name := "MissionProfile", required := true }] },
  { name := "DescribeContact"
    description := "Grants permission to describe a contact"
    url := "https://docs.aws.amazon.com/ground-station/latest/APIReference/" ++
      "API_DescribeContact.html"
    accessLevel := "Read"
    resourceTypes := [{ name := "Contact", required := true }] },
  { name := "GetConfig"
    description := "Grants permission to return a configuration"
    url := "https://docs.aws.amazon.com/ground-station/latest/APIReference/API_GetConfig.html"
    accessLevel := "Read"
    resourceTypes := [{ name := "Config", required := true }] },
  { name := "GetDataflowEndpointGroup"
    description := "Grants permission to return a data flow endpoint group"
    url := "https://docs.aws.amazon.com/ground-station/latest/APIReference/" ++
      "API_GetDataflowEndpointGroup.html"
    accessLevel := "Read"
    resourceTypes := [{ name := "DataflowEndpointGroup", required := true }] },
  { name := "GetMinuteUsage"
    description := "Grants permission to return minutes usage"
    url := "https://docs.aws.amazon.com/ground-station/latest/APIReference/" ++
      "API_GetMinuteUsage.html"
    accessLevel := "Read" },
  { name := "GetMissionProfile"
    description := "Grants permission to retrieve a mission profile"
    url := "https://docs.aws.amazon.com/ground-station/latest/APIReference/" ++
      "API_GetMissionProfile.html"
    accessLevel := "Read"
    resourceTypes := [{ name := "MissionProfile", required := true }] },
  { name := "GetSatellite"
    description := "Grants permission to return information about a satellite"
    url := "https://docs.aws.amazon.com/ground-station/latest/APIReference/API_GetSatellite.html"
    accessLevel := "Read"
    resourceTypes := [{ name := "Satellite", required := true }] },
  { name := "ListConfigs"
    description := "Grants permission to return a list of past configurations"
    url := "https://docs.aws.amazon.com/ground-station/latest/APIReference/API_ListConfigs.html"
    accessLevel := "List" },
  { name := "ListContacts"
    description := "Grants permission to return a list of contacts"
    url := "https://docs.aws.amazon.com/ground-station/latest/APIReference/API_ListContacts.html"
    accessLevel := "List" },
  { name := "ListDataflowEndpointGroups"
    description := "Grants permission to list data flow endpoint groups"
    url := "https://docs.aws.amazon.com/ground-station/latest/APIReference/" ++
      "API_ListDataflowEndpointGroups.html"
    accessLevel := "List" },
  { name := "ListGroundStations"
    description := "Grants permission to list ground stations"
    url := "https://docs.aws.amazon.com/ground-station/latest/APIReference/" ++
      "API_ListGroundStations.html"
    accessLevel := "List" },
  { name := "ListMissionProfiles"
    description := "Grants permission to return a list of mission profiles"
    url := "https://docs.aws.amazon.com/ground-station/latest/APIReference/" ++
      "API_ListMissionProfiles.html"
    accessLevel := "List" },
  { name := "ListSatellites"
    description := "Grants permission to list satellites"
    url := "https://docs.aws.amazon.com/ground-station/latest/APIReference/" ++
      "API_ListSatellites.html"
    accessLevel := "List" },
  { name := "ListTagsForResource"
    description := "Grants permission to list tags for a resource"
    url := "https://docs.aws.amazon.com/ground-station/latest/APIReference/" ++
      "API_ListTagsForResource.html"
    accessLevel := "Read"
    resourceTypes :=
      [{ name := "Config" },
        { name := "Contact" },
        { name := "DataflowEndpointGroup" },
        { name := "MissionProfile" }] },
  { name := "ReserveContact"
    description := "Grants permission to reserve a contact"
    url := "https://docs.aws.amazon.com/ground-station/latest/APIReference/" ++
      "API_ReserveContact.html"
    accessLevel := "Write"
    conditions := ["aws:RequestTag/${TagKey}", "aws:TagKeys"] },
  { name := "TagResource"
    description := "Grants permission to assign a resource tag"
    url := "https://docs.aws.amazon.com/ground-station/latest/APIReference/API_TagResource.html"
    accessLevel := "Tagging"
    resourceTypes :=
      [{ name := "Config" },
        { name := "Contact" },
        { name := "DataflowEndpointGroup" },
        { name := "MissionProfile" }]
    conditions := ["aws:TagKeys", "aws:RequestTag/${TagKey}"] },
  { name := "UntagResource"
    description := "Grants permission to deassign a resource tag"
    url := "https://docs.aws.amazon.com/ground-station/latest/APIReference/" ++
      "API_UntagResource.html"
    accessLevel := "Tagging"
    resourceTypes :=
      [{ name := "Config" },
        { name := "Contact" },
        { name := "DataflowEndpointGroup" },
        { name := "MissionProfile" }]
    conditions := ["aws:TagKeys"] },
  { name := "UpdateConfig"
    description := "Grants permission to update a configuration"
    url := "https://docs.aws.amazon.com/ground-station/latest/APIReference/API_UpdateConfig.html"
    accessLevel := "Write"
    resourceTypes := [{ name := "Config", required := true }] },
  { name := "UpdateMissionProfile"
    description := "Grants permission to update a mission profile"
    url := "https://docs.aws.amazon.com/ground-station/latest/APIReference/" ++
      "API_UpdateMissionProfile.html"
    accessLevel := "Write"
    resourceTypes := [{ name := "MissionProfile", required := true }] }]

/-- The resource types. -/
def groundStationResources : List Catalog.ResourceEntry := [
  { name := "Config"
    url := "https://docs.aws.amazon.com/ground-station/latest/APIReference/" ++
      "API_ConfigListItem.html"
    arn := "arn:${Partition}:groundstation:${Region}:${Account}:config/${ConfigType}/${ConfigId}"
    conditionKeys := ["aws:ResourceTag/${TagKey}", "configId", "configType"] },
  { name := "Contact"
    url := "https://docs.aws.amazon.com/ground-station/latest/APIReference/API_ContactData.html"
    arn := "arn:${Partition}:groundstation:${Region}:${Account}:contact/${ContactId}"
    conditionKeys := ["aws:ResourceTag/${TagKey}", "contactId"] },
  { name := "DataflowEndpointGroup"
    url := "https://docs.aws.amazon.com/ground-station/latest/APIReference/" ++
      "API_DataflowEndpoint.html"
    arn := "arn:${Partition}:groundstation:${Region}:${Account}:dataflow-endpoint-group/" ++
      "${DataflowEndpointGroupId}"
    conditionKeys := ["aws:ResourceTag/${TagKey}", "dataflowEndpointGroupId"] },
  { name := "GroundStationResource"
    url := "https://docs.aws.amazon.com/ground-station/latest/APIReference/" ++
      "API_GroundStationData.html"
    arn := "arn:${Partition}:groundstation:${Region}:${Account}:groundstation:${GroundStationId}"
    conditionKeys := ["groundStationId"] },
  { name := "MissionProfile"
    url := "https://docs.aws.amazon.com/ground-station/latest/APIReference/" ++
      "API_MissionProfileListItem.html"
    arn := "arn:${Partition}:groundstation:${Region}:${Account}:mission-profile/" ++
      "${MissionProfileId}"
    conditionKeys := ["aws:ResourceTag/${TagKey}", "missionProfileId"] },
  { name := "Satellite"
    url := "https://docs.aws.amazon.com/ground-station/latest/APIReference/" ++
      "API_SatelliteListItem.html"
    arn := "arn:${Partition}:groundstation:${Region}:${Account}:satellite/${SatelliteId}"
    conditionKeys := ["satelliteId"] }]

/-- The condition keys. -/
def groundStationKeys : List Catalog.KeyEntry := [
  { key := "aws:RequestTag/${TagKey}"
    description := "Filters access by the tags that are passed in the request"
    url := "https://docs.aws.amazon.com/IAM/latest/UserGuide/" ++
      "reference_policies_condition-keys.html#condition-keys-requesttag"
    valueType := "String" },
  { key := "aws:ResourceTag/${TagKey}"
    description := "Filters access by the tags associated with the resource"
    url := "https://docs.aws.amazon.com/IAM/latest/UserGuide/" ++
      "reference_policies_condition-keys.html#condition-keys-resourcetag"
    valueType := "String" },
  { key := "aws:TagKeys"
    description := "Filters access by the tag keys that are passed in the request"
    url := "https://docs.aws.amazon.com/IAM/latest/UserGuide/" ++
      "reference_policies_condition-keys.html#condition-keys-tagkeys"
    valueType := "ArrayOfString" },
  { key := "configId"
    description := "Filters access by the ID of a config"
    url := "https://docs.aws.amazon.com/ground-station/latest/APIReference/" ++
      "API_CreateConfig.html#groundstation-CreateConfig-response-configId"
    valueType := "String" },
  { key := "configType"
    description := "Filters access by the type of a config"
    url := "https://docs.aws.amazon.com/ground-station/latest/APIReference/" ++
      "API_CreateConfig.html#groundstation-CreateConfig-response-configType"
    valueType := "String" },
  { key := "contactId"
    description := "Filters access by the ID of a contact"
    url := "https://docs.aws.amazon.com/ground-station/latest/APIReference/" ++
      "API_ReserveContact.html#groundstation-ReserveContact-response-contactId"
    valueType := "String" },
  { key := "dataflowEndpointGroupId"
    description := "Filters access by the ID of a dataflow endpoint group"
    url := "https://docs.aws.amazon.com/ground-station/latest/APIReference/" ++
      "API_CreateDataflowEndpointGroup.html#groundstation-CreateDataflowEndpointGroup-" ++
        "response-dataflowEndpointGroupId"
    valueType := "String" },
  { key := "groundStationId"
    description := "Filters access by the ID of a ground station"
    url := "https://docs.aws.amazon.com/ground-station/latest/APIReference/" ++
      "API_GroundStationData.html#groundstation-Type-GroundStationData-groundStationId"
    valueType := "String" },
  { key := "missionProfileId"
    description := "Filters access by the ID of a mission profile"
    url := "https://docs.aws.amazon.com/ground-station/latest/APIReference/" ++
      "API_CreateMissionProfile.html#groundstation-CreateMissionProfile-response-" ++
        "missionProfileId"
    valueType := "String" },
  { key := "satelliteId"
    description := "Filters access by the ID of a satellite"
    url := "https://docs.aws.amazon.com/ground-station/latest/APIReference/" ++
      "API_SatelliteListItem.html#groundstation-Type-SatelliteListItem-satelliteId"
    valueType := "String" }]

/-- The catalog. -/
def groundStation : Catalog.Record :=
  { name := "groundstation"
    servicePrefix := "groundstation"
    url := "https://docs.aws.amazon.com/service-authorization/latest/reference/" ++
      "list_awsgroundstation.html"
    actions := groundStationActions
    resourceTypes := groundStationResources
    conditionKeys := groundStationKeys }

end PolicyForge.Bundled
