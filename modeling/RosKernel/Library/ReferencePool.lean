import Mathlib.Data.Multiset.AddSub
import Mathlib.Data.Multiset.Basic

/-!
# Reference-counted pools

A pool hands out resources from a free list and counts the references to each of
them. The references themselves are not part of the pool: they are a multiset
kept by whoever holds them. `Accounts` says that the pool agrees with such a
multiset, and the rules below say how it changes when a reference is taken,
duplicated or given back.
-/

universe u

/-- A free list together with one reference count a resource. -/
structure ReferencePool (α : Type u) where
  free : List α
  count : α → ℕ

namespace ReferencePool

open Multiset

variable {α : Type u} [DecidableEq α]
variable {pool : ReferencePool α} {held : Multiset α} {resource : α}

/-- The pool's records agree with the references that are really held. -/
structure Accounts (pool : ReferencePool α) (held : Multiset α) : Prop where
  freeDistinct : pool.free.Nodup
  freeUnheld : ∀ resource ∈ pool.free, resource ∉ held
  counted : ∀ resource, pool.count resource = held.count resource

/-- Move one free resource to a first holder; `rest` is what stays free. -/
def take (pool : ReferencePool α) (resource : α) (rest : List α) : ReferencePool α where
  free := rest
  count := Function.update pool.count resource 1

/-- One more reference to a resource that is already held. -/
def retain (pool : ReferencePool α) (resource : α) : ReferencePool α where
  free := pool.free
  count := Function.update pool.count resource (pool.count resource + 1)

/-- Drop one reference of several. -/
def drop (pool : ReferencePool α) (resource : α) : ReferencePool α where
  free := pool.free
  count := Function.update pool.count resource (pool.count resource - 1)

/-- Give up the last reference; `rest` is the free list with the resource back. -/
def giveBack (pool : ReferencePool α) (resource : α) (rest : List α) : ReferencePool α where
  free := rest
  count := Function.update pool.count resource 0

namespace Accounts

section

variable (accounts : pool.Accounts held)
include accounts

/-- A held resource is counted. -/
theorem count_pos (mem : resource ∈ held) : 0 < pool.count resource := by
  rw [accounts.counted resource]
  exact Multiset.count_pos.mpr mem

/-- A held resource is not free. -/
theorem not_mem_free (mem : resource ∈ held) : resource ∉ pool.free := by
  intro free
  exact accounts.freeUnheld resource free mem

theorem take {rest : List α} (split : pool.free.Perm (resource :: rest)) :
    (pool.take resource rest).Accounts (resource ::ₘ held) := by
  have distinct : (resource :: rest).Nodup := split.nodup_iff.mp accounts.freeDistinct
  have unheld : resource ∉ held := accounts.freeUnheld resource (split.mem_iff.mpr (.head _))
  refine ⟨distinct.of_cons, ?_, ?_⟩
  · intro other free taken
    rcases mem_cons.mp taken with same | old
    · subst same
      exact distinct.notMem free
    · exact accounts.freeUnheld other (split.mem_iff.mpr (.tail _ free)) old
  · intro other
    by_cases same : other = resource
    · subst same
      simp [ReferencePool.take, count_eq_zero_of_notMem unheld]
    · simp [ReferencePool.take, same, accounts.counted other]

theorem retain (mem : resource ∈ held) : (pool.retain resource).Accounts (resource ::ₘ held) := by
  refine ⟨accounts.freeDistinct, ?_, ?_⟩
  · intro other free taken
    rcases mem_cons.mp taken with same | old
    · subst same
      exact accounts.freeUnheld other free mem
    · exact accounts.freeUnheld other free old
  · intro other
    by_cases same : other = resource
    · subst same
      simp [ReferencePool.retain, accounts.counted other]
    · simp [ReferencePool.retain, same, accounts.counted other]

end

variable (accounts : pool.Accounts (resource ::ₘ held))
include accounts

theorem drop : resource ∈ held → (pool.drop resource).Accounts held := by
  intro _
  refine ⟨accounts.freeDistinct, ?_, ?_⟩
  · intro other free old
    exact accounts.freeUnheld other free (mem_cons_of_mem old)
  · intro other
    by_cases same : other = resource
    · subst same
      simp [ReferencePool.drop, accounts.counted other]
    · have counted := accounts.counted other
      simp [ReferencePool.drop, same, counted]

theorem giveBack (last : resource ∉ held)
    {rest : List α} (joined : rest.Perm (resource :: pool.free)) :
    (pool.giveBack resource rest).Accounts held := by
  have notFree : resource ∉ pool.free := accounts.not_mem_free (mem_cons_self resource held)
  refine ⟨joined.nodup_iff.mpr (List.nodup_cons.mpr ⟨notFree, accounts.freeDistinct⟩), ?_, ?_⟩
  · intro other free old
    rcases List.mem_cons.mp (joined.mem_iff.mp free) with same | oldFree
    · subst same
      exact last old
    · exact accounts.freeUnheld other oldFree (mem_cons_of_mem old)
  · intro other
    by_cases same : other = resource
    · subst same
      simp [ReferencePool.giveBack, count_eq_zero_of_notMem last]
    · have counted := accounts.counted other
      simp [ReferencePool.giveBack, same, counted]

/-- The recorded count tells whether the dropped reference was the last one. -/
theorem count_eq_one_iff : pool.count resource = 1 ↔ resource ∉ held := by
  rw [accounts.counted resource, count_cons_self]
  constructor
  · intro _ mem
    have positive : 0 < held.count resource := Multiset.count_pos.mpr mem
    omega
  · intro absent
    rw [count_eq_zero_of_notMem absent]

end Accounts

end ReferencePool
