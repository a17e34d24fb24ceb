import BladeForm.Command.Run
import BladeForm.Main
import BladeForm.Proofs.Search
import BladeForm.Proofs.Substitution
import BladeForm.Proofs.Substitution.Unknown
import BladeForm.Proofs.Language.KeyScan
import BladeForm.Proofs.Language.Merge
import BladeForm.Proofs.Tree
import BladeForm.Proofs.Language.Completion
import BladeForm.Proofs.Language.History
import BladeForm.Proofs.Php.Group
import BladeForm.Proofs.Language.Reading
import BladeForm.Proofs.Language.Labels
import BladeForm.Proofs.Path
import BladeForm.Proofs.Indentation
import BladeForm.Proofs.Tree.Files
import BladeForm.Proofs.Language.Effect
import BladeForm.Proofs.Plan.Creation
import BladeForm.Proofs.Plan.Session
import BladeForm.Proofs.Name
import BladeForm.Proofs.Form.Events
import BladeForm.Proofs.Form.Markup
import BladeForm.Proofs.Form.Variables
import BladeForm.Proofs.View.Destination
import BladeForm.Proofs.Plan.Parts
import BladeForm.Proofs.Plan.Placeholders
import BladeForm.Proofs.Form.Labels
import BladeForm.Proofs.Form.Tags
import BladeForm.Proofs.Form.Controls
import BladeForm.Proofs.Form.Options
import BladeForm.Proofs.Tree.Replacement
import BladeForm.Proofs.Plan.Regeneration
import BladeForm.Proofs.Plan.Report
import BladeForm.Proofs.Command.Line
import BladeForm.Proofs.Command.DryRun
import BladeForm.Proofs.Json.Reading
import BladeForm.Proofs.Name.Identifier
import BladeForm.Proofs.Resource.Acceptance
import BladeForm.Proofs.Resource.Options
import BladeForm.Proofs.Resource.Names
import BladeForm.Proofs.Php.Loop
import BladeForm.Proofs.Resource.Scope
import BladeForm.Proofs.Language.Growth
import BladeForm.Proofs.Language.Locality
import BladeForm.Proofs.Resource.Keys
import BladeForm.Proofs.Language.Refusal
import BladeForm.Proofs.Strip
import BladeForm.Proofs.Config.Prefix
import BladeForm.Proofs.View.Route
import BladeForm.Proofs.Name.Model
import BladeForm.Proofs.Name.Plural
import BladeForm.Proofs.Resource.Location
import BladeForm.Proofs.Resource.Warnings
import BladeForm.Proofs.Substitution.Registration
import BladeForm.Proofs.Diff.Reading
import BladeForm.Proofs.Tree.Staging
import BladeForm.Proofs.Toml.Keys
import BladeForm.Proofs.Config.Load
