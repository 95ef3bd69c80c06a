import Bridge.Messages.Reading
import Bridge.Messages.Wire

namespace Bridge

open Cbor

variable {Obj : Type}

theorem store_number_admits {bits : Nat} {n : Int} {item : Item}
    (stored : (FieldType.uint bits).store (.int n) = some item) : (FieldType.uint bits).admits item := by
  cases stored
  have natural : 0 ≤ n % 2 ^ bits := Int.emod_nonneg n (by positivity)
  have bound : n % 2 ^ bits < 2 ^ bits := Int.emod_lt_of_pos n (by positivity)
  rcases Int.eq_ofNat_of_zero_le natural with ⟨m, same⟩
  rw [same] at bound
  exact ⟨m, by rw [same], by exact_mod_cast bound⟩

theorem store_int32_admits {n : Int} {item : Item} (stored : FieldType.int32.store (.int n) = some item) :
    FieldType.int32.admits item := by
  cases stored
  exact ⟨_, rfl, @Int.le_bmod n (2 ^ 32) (by decide), @Int.bmod_lt n (2 ^ 32) (by decide)⟩

theorem store_bytes_admits {type : FieldType} (string : type = .bytes ∨ type = .rawBytes) {content : List UInt8}
    {item : Item} (stored : type.store (.bytes content) = some item) : type.admits item := by
  rcases string with rfl | rfl
  · simp only [FieldType.store] at stored
    split at stored
    · cases stored
    · rename_i filled
      cases stored
      exact ⟨content, rfl, filled⟩
  · cases stored
    exact ⟨content, rfl⟩

def Outcome.object : Outcome Obj → Obj
  | .returns _ obj | .continues _ _ obj => obj

section Decoder

variable {format : Format Obj} (lawful : format.Lawful)
include lawful

theorem init_typed : format.WellTyped format.init := by
  intro field member item held
  rw [lawful.get_init field member] at held
  cases held

theorem set_typed {field : Field Obj} (member : field ∈ format.fields) {obj : Obj} (typed : format.WellTyped obj)
    {value : Option Item} (admits : ∀ item, value = some item → field.type.admits item) :
    format.WellTyped (field.set value obj) := by
  intro other inside item held
  by_cases same : other.tag = field.tag
  · have field_eq : other = field := List.inj_on_of_nodup_map lawful.tags inside member same
    subst field_eq
    rw [(lawful.regular other member).get_set value obj fun item some => admits_shaped (admits item some)] at held
    exact admits item held
  · rw [lawful.get_other field member other inside (Ne.symm same)] at held
    exact typed other inside item held

theorem take_typed {field : Field Obj} (member : field ∈ format.fields) {content next : CborValue} {obj obj' : Obj}
    {err : CborError} (typed : format.WellTyped obj) (done : field.take content obj = some (err, next, obj')) :
    format.WellTyped obj' := by
  unfold Field.take at done
  split at done
  · rename_i bits type
    rcases Option.bind_eq_some_iff.mp done with ⟨val, _, moved⟩
    rcases Option.map_eq_some_iff.mp moved with ⟨⟨_, _⟩, _, same⟩
    cases same
    apply set_typed lawful member typed
    rw [type]
    exact fun item stored => store_number_admits stored
  · rename_i type
    rcases Option.map_eq_some_iff.mp done with ⟨⟨_, _⟩, _, same⟩
    cases same
    apply set_typed lawful member typed
    rw [type]
    exact fun item stored => store_int32_admits stored
  · rename_i type
    rcases Option.map_eq_some_iff.mp done with ⟨⟨_, _⟩, _, same⟩
    cases same
    apply set_typed lawful member typed
    rw [type]
    rintro item ⟨⟩
    exact ⟨getBoolean content, rfl⟩
  all_goals
    rename_i type
    split at done
    · cases done
      exact typed
    · simp only at done
      split at done
      · cases done
        exact typed
      · cases done
        apply set_typed lawful member typed
        rw [type]
        exact fun item stored => store_bytes_admits (by simp) stored

theorem fallThrough_typed {cases : List (Field Obj)} (among : ∀ field ∈ cases, field ∈ format.fields) {content : CborValue}
    {obj : Obj} (typed : format.WellTyped obj) {outcome : Outcome Obj}
    (done : format.fallThrough cases content obj = some outcome) :
    format.WellTyped outcome.object := by
  unfold Format.fallThrough at done
  split at done
  · rename_i field found
    rcases Option.map_eq_some_iff.mp done with ⟨⟨err, next, obj'⟩, taken, same⟩
    have kept := take_typed lawful (among field (List.mem_of_find?_eq_some found)) typed taken
    simp only at same
    split at same
    · cases same
      exact kept
    · cases same
      exact kept
  · split at done
    · cases done
      exact typed
    · cases done
      exact typed

theorem switch_typed {tagId : Int} {content : CborValue} {obj : Obj} (typed : format.WellTyped obj)
    {outcome : Outcome Obj} (done : format.switch tagId content obj = some outcome) :
    format.WellTyped outcome.object := by
  unfold Format.switch at done
  split at done
  · split at done
    · cases done
      exact typed
    · rcases Option.map_eq_some_iff.mp done with ⟨⟨err, next⟩, _, same⟩
      cases same
      exact typed
  · exact fallThrough_typed lawful (fun field inside => casesFrom_subset inside) typed done

theorem loop_typed {fuel : Nat} {content : CborValue} {err : CborError} {obj obj' : Obj} {result : IgSerializerError}
    (typed : format.WellTyped obj) (done : format.loop fuel content err obj = some (result, obj')) :
    format.WellTyped obj' := by
  induction fuel generalizing content err obj with
  | zero => cases done
  | succ fuel ih =>
    unfold Format.loop at done
    split at done
    · cases done
      exact typed
    · split at done
      · cases done
        exact typed
      · rcases Option.bind_eq_some_iff.mp done with ⟨⟨failed, next⟩, _, moved⟩
        simp only at moved
        split at moved
        · cases moved
          exact typed
        · rcases Option.bind_eq_some_iff.mp moved with ⟨outcome, switched, ended⟩
          have kept := switch_typed lawful typed switched
          cases outcome with
          | returns err obj =>
            cases ended
            exact kept
          | continues err content obj => exact ih kept ended

/-- Whatever a decoder reads and however it ends, the object holds what its setters keep. -/
theorem codec_typed (garbage : CborValue) (bytes : List UInt8) :
    format.WellTyped ((format.codec garbage).decode bytes).2 := by
  unfold Format.codec
  simp only
  cases decoded : format.decode garbage bytes format.init with
  | none => exact init_typed lawful
  | some result =>
    rcases result with ⟨err, obj⟩
    unfold Format.decode at decoded
    simp only at decoded
    split at decoded
    · cases decoded
      exact init_typed lawful
    · rcases Option.bind_eq_some_iff.mp decoded with ⟨⟨failed, content⟩, _, moved⟩
      simp only at moved
      split at moved
      · cases moved
        exact init_typed lawful
      · exact loop_typed lawful (init_typed lawful) moved

end Decoder

end Bridge
