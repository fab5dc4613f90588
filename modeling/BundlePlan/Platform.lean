/-! The operating system families that a bundle can be built for, by their lower-case names.
Configuration keys, option values and stored values use these names exactly; the name of an
operating system that is none of them stands for `other`. -/
namespace BundlePlan

inductive Platform
  | linux
  | macos
  | windows
  | other
deriving DecidableEq, Repr

namespace Platform

def all : List Platform := [linux, macos, windows, other]

def name : Platform → String
  | linux => "linux"
  | macos => "macos"
  | windows => "windows"
  | other => "other"

instance : ToString Platform := ⟨Platform.name⟩

def ofName? (name : String) : Option Platform := all.find? fun p => p.name == name

def ofSystem (system : String) : Platform := (ofName? system).getD other

/-- Where the planner itself runs; bundles are for the same platform unless they are for another. -/
def host : Platform := ofSystem "linux"

@[simp] theorem ofName?_name (p : Platform) : ofName? p.name = some p := by cases p <;> decide

@[simp] theorem name_inj {a b : Platform} : a.name = b.name ↔ a = b := by
  cases a <;> cases b <;> decide

end Platform
end BundlePlan
