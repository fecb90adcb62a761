import WeeboSi.Chassis.Managed
import WeeboSi.Lib.Json

/-!
# What the loops read of a DevWorkspace

Source: crates/weebo-si-controller/src/workspace.rs:15-40, 82-140,
crates/weebo-si-network-profiles/src/exclusion.rs:17-33 and the attribute lookup the loops of
network-profiles and kubearmor-policy share.
-/
namespace WeeboSi.Controller
open WeeboSi.Lib WeeboSi.Crd WeeboSi.Chassis

/-- A `DevWorkspace` as the watch delivers it: `data` is everything but the metadata. -/
structure DevWorkspace where
  name : Option Text
  namespaceName : Option Text
  uid : Option Text
  labels : Labels
  data : Json

def idLabel : Text := "controller.devfile.io/devworkspace_id".toList

def textOf : Json → Option Text
  | .string value => some value
  | _ => none

/-- The status first; the label is honoured where there is one. -/
def devworkspaceId (obj : DevWorkspace) : Option Text :=
  (((obj.data.pointer ["status".toList, "devworkspaceId".toList]).bind textOf).filter (· ≠ [])).or
    ((obj.labels.lookup idLabel).filter (· ≠ []))

def devworkspaceOwner (obj : DevWorkspace) : Option Owner := do
  let name ← obj.name
  let uid ← obj.uid
  some ⟨"workspace.devfile.io/v1alpha2".toList, "DevWorkspace".toList, name, uid⟩

/-- The attribute a configuration names; the empty key disables it. -/
def attributeOf (key : Text) (obj : DevWorkspace) : Option Text :=
  if key = [] then none
  else do
    let attributes ← obj.data.pointer ["spec".toList, "template".toList, "attributes".toList]
    match attributes with
    | .object members => (members.lookup key).bind textOf
    | _ => none

def cheNamespace : Text := "eclipse-che".toList

def isExcludedNamespace (namespaceName operatorNamespace : Text) : Bool :=
  namespaceName = operatorNamespace || namespaceName = cheNamespace

end WeeboSi.Controller
