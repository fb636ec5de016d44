import GuidedTours.Json.OpenData
import GuidedTours.Text.Blank

/-!
What is played when somebody reaches the end of a flow, and the catalog of built-in animations. For
a full-screen animation the data name it; a name from the catalog settles its address, duration and
position.
-/

set_option autoImplicit false

namespace GuidedTours

inductive FinishEffectKind where
  | none
  | fullScreenAnimation
deriving DecidableEq

structure FinishEffect where
  kind : FinishEffectKind := .none
  data : OpenData := .empty

structure Animation where
  name : String
  seconds : Nat
  position : String
deriving DecidableEq

namespace Animation

def middleScreen : String := "middle_screen"

def bottomMiddle : String := "bottom_middle"

def catalog : List Animation := [
  ⟨"fireworks_1", 4, bottomMiddle⟩,
  ⟨"confetti_1", 2, bottomMiddle⟩,
  ⟨"congratulations_1", 5, middleScreen⟩]

/-- Slashes at the end of the base address do not count. -/
def url (base : String) (a : Animation) : String :=
  String.ofList (Text.dropEndWhile (· = '/') base.toList) ++ "/" ++ a.name ++ ".gif"

end Animation

namespace FinishEffect

def fullScreenAnimation (name : String) : FinishEffect :=
  ⟨.fullScreenAnimation, OpenData.empty.insert "name" (.text name) trivial⟩

/-- The name in the data, if it is a text. -/
def name? (e : FinishEffect) : Option String :=
  (e.data.get? "name").bind Json.text?

/-- The catalog entry of an effect's name. -/
def animation? (e : FinishEffect) : Option Animation :=
  e.name?.bind fun name ↦ Animation.catalog.find? (·.name = name)

/-- Completes a full-screen animation: it plays in the middle of the screen unless the catalog
places it elsewhere. Other effects stay as they are. -/
def complete (assetBaseUrl : String) (e : FinishEffect) : FinishEffect :=
  match e.kind with
  | .none => e
  | .fullScreenAnimation =>
    let centered := e.data.insert "position" (.text Animation.middleScreen) trivial
    match e.animation? with
    | none => { e with data := centered }
    | some a =>
      { e with
        data := ((centered.insert "url" (.text (a.url assetBaseUrl)) trivial).insert
          "duration_s" (.int a.seconds) trivial).insert "position" (.text a.position) trivial }

end FinishEffect

end GuidedTours
