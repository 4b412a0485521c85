import Schemata.Proofs.Registry.Growth

/-!
# Something done to all entries

A registry does not look at what it stores.  Whatever is done to all of its entries alike may be
done before or after a name is looked up or written, and before or after a group of writes is opened
or closed.
-/

namespace Schemata

@[simp] theorem getKey?_map {κ α β : Type} [BEq κ] (f : α → β) (k : κ) (m : List (κ × α)) :
    getKey? k (m.map fun e => (e.1, f e.2)) = (getKey? k m).map f := by
  induction m with
  | nil => rfl
  | cons e m ih =>
    show (if e.1 == k then some (f e.2) else getKey? k (m.map _)) =
      (if e.1 == k then some e.2 else getKey? k m).map f
    rw [ih]
    split <;> rfl

namespace Registry

variable {α β : Type} {f : α → β}

/-- A registry with something done to all entries. -/
def mapped (f : α → β) (r : Registry α) : Registry β where
  entries := r.entries.map fun e => (e.1, f e.2)
  journals := r.journals

@[simp] theorem get?_mapped (r : Registry α) (name : String) :
    (r.mapped f).get? name = (r.get? name).map f :=
  getKey?_map f name r.entries

@[simp] theorem contains_mapped (r : Registry α) (name : String) :
    (r.mapped f).contains name = r.contains name := by
  unfold contains
  rw [get?_mapped, Option.isSome_map]

@[simp] theorem mapped_store (r : Registry α) (name : String) (a : α) :
    (r.store name a).mapped f = (r.mapped f).store name (f a) := by
  unfold store mapped
  rw [List.map_append]
  rfl

/-- **Something is written**, or found to be there. -/
theorem mapped_put (r : Registry α) (name : String) (a : α) :
    (f (r.put name a).1, (r.put name a).2.mapped f) = (r.mapped f).put name (f a) := by
  unfold put
  rw [get?_mapped]
  cases r.get? name with
  | none => rw [Option.map_none, mapped_store]
  | some stored => rfl

@[simp] theorem mapped_open (r : Registry α) : r.open_.mapped f = (r.mapped f).open_ :=
  rfl

@[simp] theorem mapped_commit (r : Registry α) : r.commit.mapped f = (r.mapped f).commit := by
  obtain ⟨entries, journals⟩ := r
  cases journals with
  | nil => rfl
  | cons written js => cases js <;> rfl

@[simp] theorem mapped_rollback (r : Registry α) : r.rollback.mapped f = (r.mapped f).rollback := by
  obtain ⟨entries, journals⟩ := r
  cases journals with
  | nil => rfl
  | cons written js =>
    show mk ((entries.filter _).map _) js = mk ((entries.map _).filter _) js
    rw [List.filter_map]
    rfl

end Registry

end Schemata
