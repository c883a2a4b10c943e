import Mathlib.Data.List.Nodup
import Mathlib.Tactic.Tauto

/-!
# Nodes of a scene

What `RepoNode` holds of every node.  The parents of a node are a `std::set`, so no parent occurs twice.
-/

namespace Bouncer

inductive NodeType where
  | MATERIAL
  | MESH
  | METADATA
  | REVISION
  | TEXTURE
  | TRANSFORMATION
  | UNKNOWN
  deriving DecidableEq

structure RepoNode (U : Type) where
  type : NodeType
  name : String
  uniqueId : U
  sharedId : U
  parentIds : List U
  nodup : parentIds.Nodup

namespace RepoNode

variable {U : Type} [DecidableEq U]

def addParent (node : RepoNode U) (parent : U) : RepoNode U :=
  { node with
    parentIds := node.parentIds.insert parent
    nodup := node.nodup.insert }

def addParents (node : RepoNode U) (parents : List U) : RepoNode U := parents.foldl addParent node

def removeParent (node : RepoNode U) (parent : U) : RepoNode U :=
  { node with
    parentIds := node.parentIds.erase parent
    nodup := node.nodup.erase parent }

variable (node : RepoNode U) (parents : List U)

@[simp] theorem addParents_type : (node.addParents parents).type = node.type := by
  induction parents generalizing node with
  | nil => rfl
  | cons p parents ih => exact ih (node.addParent p)

@[simp] theorem addParents_name : (node.addParents parents).name = node.name := by
  induction parents generalizing node with
  | nil => rfl
  | cons p parents ih => exact ih (node.addParent p)

@[simp] theorem addParents_uniqueId : (node.addParents parents).uniqueId = node.uniqueId := by
  induction parents generalizing node with
  | nil => rfl
  | cons p parents ih => exact ih (node.addParent p)

@[simp] theorem addParents_sharedId : (node.addParents parents).sharedId = node.sharedId := by
  induction parents generalizing node with
  | nil => rfl
  | cons p parents ih => exact ih (node.addParent p)

@[simp] theorem mem_addParents {node : RepoNode U} {parents : List U} {p : U} :
    p ∈ (node.addParents parents).parentIds ↔ p ∈ node.parentIds ∨ p ∈ parents := by
  induction parents generalizing node with
  | nil => simp [addParents]
  | cons q parents ih =>
    have hq : p ∈ (node.addParent q).parentIds ↔ p = q ∨ p ∈ node.parentIds := List.mem_insert_iff
    show p ∈ ((node.addParent q).addParents parents).parentIds ↔ _
    rw [ih, hq, List.mem_cons]
    tauto

@[simp] theorem mem_removeParent {node : RepoNode U} {p q : U} :
    p ∈ (node.removeParent q).parentIds ↔ p ≠ q ∧ p ∈ node.parentIds :=
  node.nodup.mem_erase_iff

end RepoNode

end Bouncer
