import Wakii.Library.OrderedMap

/-!
# Maps related key by key

Two maps with the same keys in one order whose values are related.  A loop that
rewrites a map one key at a time relates its end to its start by any preorder
that each rewrite keeps.
-/

namespace OrderedCollections

variable {K V : Type*} [DecidableEq K]

structure Related (R : V → V → Prop) (before after : OrderedMap K V) : Prop where
  keys : after.keys = before.keys
  lookup : ∀ key value, before.lookup key = some value →
    ∃ value', after.lookup key = some value' ∧ R value value'

namespace Related

variable {R S T : V → V → Prop} {before middle after : OrderedMap K V}

theorem refl (hrefl : ∀ value, R value value) (map : OrderedMap K V) : Related R map map :=
  ⟨rfl, fun _ value hlookup => ⟨value, hlookup, hrefl value⟩⟩

theorem trans (hcompose : ∀ first second third, R first second → S second third → T first third)
    (hfirst : Related R before middle) (hsecond : Related S middle after) :
    Related T before after := by
  refine ⟨hsecond.keys.trans hfirst.keys, fun key value hlookup => ?_⟩
  obtain ⟨value', hlookup', hvalue⟩ := hfirst.lookup key value hlookup
  obtain ⟨value'', hlookup'', hvalue'⟩ := hsecond.lookup key value' hlookup'
  exact ⟨value'', hlookup'', hcompose value value' value'' hvalue hvalue'⟩

theorem mono (hrelated : Related R before after) (himp : ∀ value value', R value value' →
    S value value') : Related S before after := by
  refine ⟨hrelated.keys, fun key value hlookup => ?_⟩
  obtain ⟨value', hlookup', hvalue⟩ := hrelated.lookup key value hlookup
  exact ⟨value', hlookup', himp value value' hvalue⟩

theorem set (hrefl : ∀ value, R value value) {map : OrderedMap K V} {key : K} {value value' : V}
    (hlookup : map.lookup key = some value) (hvalue : R value value') :
    Related R map (map.set key value') := by
  have hkey : key ∈ map := AList.lookup_isSome.mp (by rw [hlookup]; rfl)
  refine ⟨OrderedMap.keys_set_of_mem value' hkey, fun other stored hother => ?_⟩
  rw [OrderedMap.lookup_set]
  split_ifs with hsame
  · rw [hsame, hlookup, Option.some.injEq] at hother
    exact ⟨value', rfl, hother ▸ hvalue⟩
  · exact ⟨stored, hother, hrefl stored⟩

theorem flatMap_pairs {A : Type*} (hrelated : Related R before after) {f : K × V → List A}
    (hf : ∀ key value value', R value value' → f (key, value') = f (key, value)) :
    after.pairs.flatMap f = before.pairs.flatMap f := by
  rw [OrderedMap.flatMap_pairs, OrderedMap.flatMap_pairs, hrelated.keys]
  refine List.flatMap_congr fun key hkey => ?_
  rw [← AList.mem_keys, ← AList.lookup_isSome] at hkey
  obtain ⟨value, hlookup⟩ := Option.isSome_iff_exists.mp hkey
  obtain ⟨value', hlookup', hvalue⟩ := hrelated.lookup key value hlookup
  rw [hlookup, hlookup', Option.map_some, Option.map_some, hf key value value' hvalue]

theorem foldl {A B : Type*} (hrefl : ∀ value, R value value)
    (htrans : ∀ first second third, R first second → R second third → R first third)
    (mapOf : A → OrderedMap K V) (step : A → B → A)
    (hstep : ∀ state item, Related R (mapOf state) (mapOf (step state item)))
    (items : List B) (state : A) : Related R (mapOf state) (mapOf (items.foldl step state)) := by
  induction items generalizing state with
  | nil => exact refl hrefl (mapOf state)
  | cons item items ih => exact (hstep state item).trans htrans (ih (step state item))

end Related

end OrderedCollections
