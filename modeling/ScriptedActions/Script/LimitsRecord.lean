import ScriptedActions.Json.Decoder
import ScriptedActions.Script.Limits
import ScriptedActions.Toml.Decoder

/-!
# Limits as records

How limits are read from JSON and from TOML, and written to JSON. A field that is missing has its
standard value.
-/

set_option autoImplicit false

namespace ScriptedActions.Script.Limits

open Json.Decoder in
/-- Reads limits from JSON. -/
def decoder : Json.Decoder Limits :=
  record "ScriptLimits" standard [
    .given "max_operations" nat64 fun l n => { l with operations := n },
    .given "max_call_levels" count fun l n => { l with callLevels := n },
    .given "max_expr_depth" count fun l n => { l with exprDepth := n },
    .given "max_function_expr_depth" count fun l n => { l with functionExprDepth := n },
    .given "max_string_size" count fun l n => { l with textSize := n },
    .given "max_array_size" count fun l n => { l with arraySize := n },
    .given "max_map_size" count fun l n => { l with mapSize := n }]

open Toml.Decoder in
/-- Reads limits from TOML. -/
def tomlDecoder : Toml.Decoder Limits :=
  record standard [
    field "max_operations" nat fun n l => { l with operations := n },
    field "max_call_levels" nat fun n l => { l with callLevels := n },
    field "max_expr_depth" nat fun n l => { l with exprDepth := n },
    field "max_function_expr_depth" nat fun n l => { l with functionExprDepth := n },
    field "max_string_size" nat fun n l => { l with textSize := n },
    field "max_array_size" nat fun n l => { l with arraySize := n },
    field "max_map_size" nat fun n l => { l with mapSize := n }]

/-- Writes limits. -/
def toJson (l : Limits) : Json :=
  .object (Table.ofList [
    ("max_operations", .int l.operations),
    ("max_call_levels", .int l.callLevels),
    ("max_expr_depth", .int l.exprDepth),
    ("max_function_expr_depth", .int l.functionExprDepth),
    ("max_string_size", .int l.textSize),
    ("max_array_size", .int l.arraySize),
    ("max_map_size", .int l.mapSize)])

end ScriptedActions.Script.Limits
