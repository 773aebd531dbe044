import PolicyForge.Bundled.Providers
import PolicyForge.Main
import PolicyForge.Proofs.Service.Provider
import PolicyForge.Proofs.Statement.Shape
import PolicyForge.Statement.Document
import PolicyForge.Statement.Basic
import PolicyForge.Proofs.Service.Methods
import PolicyForge.Proofs.Source.Module
import PolicyForge.Proofs.Batch.Generation
import PolicyForge.Proofs.Source.Layout
import PolicyForge.Proofs.Source.Comments
import PolicyForge.Proofs.Condition.KeyTemplate
import PolicyForge.Proofs.Service.Calls
import PolicyForge.Proofs.Bundled.Providers
import PolicyForge.Proofs.Service.Links
import PolicyForge.Proofs.Service.Violations
import PolicyForge.Proofs.Service.References
import PolicyForge.Proofs.Batch.Report
import PolicyForge.Proofs.Json.Record
import PolicyForge.Proofs.Catalog.Entries
import PolicyForge.Proofs.Arn.Canonical
import PolicyForge.Proofs.Text.ByteOrder
import PolicyForge.Proofs.Identifier.Items
import PolicyForge.Proofs.Batch.Index
import PolicyForge.Proofs.FileTree.Lookup
import PolicyForge.Proofs.FileTree.Directories
import PolicyForge.Proofs.Workspace.Files
import PolicyForge.Proofs.Workspace.Modules
import PolicyForge.Proofs.Json.Rearranged
import PolicyForge.Proofs.Ordered.Comparison
import PolicyForge.Proofs.Statement.Contents
import PolicyForge.Proofs.Batch.Selection
import PolicyForge.Proofs.Command.Generate
import PolicyForge.Proofs.Service.Canonical
import PolicyForge.Proofs.Source.Literal
import PolicyForge.Proofs.Source.Tables
import PolicyForge.Proofs.Statement.Equality
import PolicyForge.Proofs.Service.Collisions
import PolicyForge.Proofs.Service.SharedKeys
import PolicyForge.Proofs.Service.KeyMethods
import PolicyForge.Proofs.Source.Arguments
import PolicyForge.Proofs.Identifier.Reserved
import PolicyForge.Proofs.Arn.Filling
import PolicyForge.Proofs.Condition.KeyGrammar
import PolicyForge.Proofs.Condition.Operator
import PolicyForge.Proofs.Service.AccessLevels
import PolicyForge.Proofs.Service.Lookup
import PolicyForge.Proofs.Source.Documentation
import PolicyForge.Proofs.Identifier.Snake
import PolicyForge.Proofs.Identifier.Allocation
import PolicyForge.Proofs.Service.ValueTypes
import PolicyForge.Proofs.Command.Listing
import PolicyForge.Proofs.Catalog.Change
