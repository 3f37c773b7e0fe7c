/-
# A bounded cache

An ordered dictionary in which the entry used last stands last. Looking an entry up
moves it there (`touch`); storing one puts it there and drops the oldest beyond the size
(`store`). What is in the cache after that was stored, or was there before
(`of_get?_store`).
-/
import Restock.Lib.Dict

namespace LruCache

variable {K V : Type*} [DecidableEq K]

/-- An entry that is there moves to the end. -/
def touch (d : Dict K V) (k : K) : Dict K V :=
  match d.get? k with
  | none => d
  | some v => (d.filter fun k' _ => k' ≠ k).set k v

/-- The oldest entries beyond the size go. -/
def evict (maxsize : ℕ) (d : Dict K V) : Dict K V where
  items := d.items.drop (d.items.length - maxsize)
  nodup := d.nodup.sublist ((List.drop_sublist _ _).map _)

def store (maxsize : ℕ) (d : Dict K V) (k : K) (v : V) :
    Dict K V := evict maxsize (touch (d.set k v) k)

variable {d : Dict K V} {k k' : K} {v v' : V}

theorem get?_touch (d : Dict K V) (k k' : K) : (touch d k).get? k' = d.get? k' := by
  unfold touch
  cases hk : d.get? k with
  | none => rfl
  | some v =>
    show ((d.filter _).set k v).get? k' = _
    rw [Dict.get?_set, Dict.get?_filter]
    split_ifs with h
    · rw [h, hk]
    · cases d.get? k' <;> simp [Option.filter, h]

theorem of_get?_evict {n : ℕ} (h : (evict n d).get? k = some v) : d.get? k = some v :=
  Dict.get?_eq_some_iff.mpr (List.mem_of_mem_drop (Dict.get?_eq_some_iff.mp h))

theorem of_get?_store {n : ℕ} (h : (store n d k v).get? k' = some v') :
    k' = k ∧ v' = v ∨ d.get? k' = some v' := by
  have hset := of_get?_evict h
  rw [get?_touch, Dict.get?_set] at hset
  split_ifs at hset with hk
  · exact Or.inl ⟨hk, (Option.some.inj hset).symm⟩
  · exact Or.inr hset

end LruCache
