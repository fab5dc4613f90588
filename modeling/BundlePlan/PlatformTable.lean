import BundlePlan.Dictionary
import BundlePlan.ModuleSet
import BundlePlan.Platform

/-! What a plugin needs besides on one platform. Rows are kept by plugin and then by platform;
repeated insertions into one row accumulate, and a row with no dependencies is still a row. -/
namespace BundlePlan

structure PlatformTable where
  rows : Dictionary ModuleId (Dictionary Platform ModuleSet)

namespace PlatformTable

def empty : PlatformTable := ⟨∅⟩

instance : EmptyCollection PlatformTable := ⟨empty⟩

def rowsOf (table : PlatformTable) (plugin : ModuleId) : Dictionary Platform ModuleSet :=
  (table.rows.find? plugin).getD ∅

def row? (table : PlatformTable) (plugin : ModuleId) (platform : Platform) : Option ModuleSet :=
  (table.rowsOf plugin).find? platform

def extra (table : PlatformTable) (plugin : ModuleId) (platform : Platform) : ModuleSet :=
  (table.row? plugin platform).getD ∅

def insert (table : PlatformTable) (plugin : ModuleId) (platform : Platform)
    (deps : List ModuleId) : PlatformTable :=
  ⟨table.rows.insert plugin ((table.rowsOf plugin).insert platform
    ((table.extra plugin platform).union (.ofList deps)))⟩

/-- The number of rows, over all plugins. -/
def size (table : PlatformTable) : Nat :=
  table.rows.entries.foldr (fun plugin rows => plugin.2.size + rows) 0

def isEmpty (table : PlatformTable) : Bool := table.rows.isEmpty

def listed (table : PlatformTable) : List ModuleId :=
  table.rows.entries.flatMap fun plugin => plugin.2.entries.flatMap fun row => row.2.toList

theorem row?_eq_some {table : PlatformTable} {plugin : ModuleId} {platform : Platform}
    {set : ModuleSet} : table.row? plugin platform = some set ↔
      ∃ rows, (plugin, rows) ∈ table.rows.entries ∧ (platform, set) ∈ rows.entries := by
  rw [row?, rowsOf]
  cases found : table.rows.find? plugin with
  | none =>
    have nothing : (∅ : Dictionary Platform ModuleSet).find? platform = none := rfl
    rw [Option.getD_none, nothing]
    refine iff_of_false (by simp) ?_
    rintro ⟨rows, inside, _⟩
    rw [(Dictionary.find?_eq_some_iff _).2 inside] at found
    cases found
  | some rows =>
    rw [Option.getD_some, Dictionary.find?_eq_some_iff]
    constructor
    · intro inside
      exact ⟨rows, (Dictionary.find?_eq_some_iff _).1 found, inside⟩
    · rintro ⟨others, inside, here⟩
      rw [(Dictionary.find?_eq_some_iff _).2 inside] at found
      exact Option.some.inj found ▸ here

theorem mem_listed_of_mem_extra {table : PlatformTable} {plugin id : ModuleId} {platform : Platform}
    (member : id ∈ table.extra plugin platform) : id ∈ table.listed := by
  rw [extra] at member
  cases found : table.row? plugin platform with
  | none =>
    rw [found] at member
    exact absurd member (ModuleSet.not_mem_empty id)
  | some set =>
    rw [found] at member
    obtain ⟨rows, outer, inner⟩ := row?_eq_some.1 found
    exact List.mem_flatMap.2 ⟨_, outer, List.mem_flatMap.2 ⟨_, inner, ModuleSet.mem_toList.2 member⟩⟩

end PlatformTable
end BundlePlan
