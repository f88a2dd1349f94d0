import JsxWidgets.Config.Field
import JsxWidgets.Proofs.Behaviour.ClassProps
import JsxWidgets.Proofs.Behaviour.CustomHooks
import JsxWidgets.Proofs.Behaviour.EventHandlers
import JsxWidgets.Proofs.Behaviour.HookNames
import JsxWidgets.Proofs.Behaviour.NamedFunctions
import JsxWidgets.Proofs.Behaviour.ShallowScan
import JsxWidgets.Proofs.Behaviour.StateNames
import JsxWidgets.Proofs.Behaviour.TypedProps
import JsxWidgets.Proofs.Component.Ambiguity
import JsxWidgets.Proofs.Component.Extraction
import JsxWidgets.Proofs.Component.Returns
import JsxWidgets.Proofs.Config.Agreement
import JsxWidgets.Proofs.Emission.Commas
import JsxWidgets.Proofs.Emission.Comments
import JsxWidgets.Proofs.Emission.Indentation
import JsxWidgets.Proofs.Emission.Payload
import JsxWidgets.Proofs.Emission.Quoted
import JsxWidgets.Proofs.Emission.Unambiguous
import JsxWidgets.Proofs.Expression.Chains
import JsxWidgets.Proofs.Expression.Faithful
import JsxWidgets.Proofs.Expression.Levels
import JsxWidgets.Proofs.Expression.LineBreaks
import JsxWidgets.Proofs.Expression.LiteralTrees
import JsxWidgets.Proofs.Expression.Operands
import JsxWidgets.Proofs.Expression.Wrappers
import JsxWidgets.Proofs.File.Constants
import JsxWidgets.Proofs.File.LiteralTypes
import JsxWidgets.Proofs.File.Members
import JsxWidgets.Proofs.File.NullSafety
import JsxWidgets.Proofs.File.Remarks
import JsxWidgets.Proofs.File.StatedTypes
import JsxWidgets.Proofs.Lowering.AttributesKept
import JsxWidgets.Proofs.Lowering.DistinctArguments
import JsxWidgets.Proofs.Lowering.Gathering
import JsxWidgets.Proofs.Lowering.Reports
import JsxWidgets.Proofs.Lowering.Retargeting
import JsxWidgets.Proofs.Lowering.Transparency
import JsxWidgets.Proofs.Pipeline
import JsxWidgets.Proofs.Places.Locations
import JsxWidgets.Proofs.Structure.ClassNames
import JsxWidgets.Proofs.Structure.CompositionTree
import JsxWidgets.Proofs.Structure.Consistency
import JsxWidgets.Proofs.Structure.DefaultExport
import JsxWidgets.Proofs.Structure.TextSamples
import JsxWidgets.Proofs.Text.Canonical
import JsxWidgets.Transform
