import Lssvc.Mmedia.Commands

set_option autoImplicit false

namespace Lssvc.Mmedia

mutual
def everywhere : AMFObject → List AMFAny
  | [] => []
  | p :: rest => p :: (within p ++ everywhere rest)

def within : AMFAny → List AMFAny
  | .object _ properties => everywhere properties
  | _ => []
end

def Named (name : Bytes) (obj : AMFObject) : Prop := ∃ p ∈ everywhere obj, p.name = name

-- What a handler takes for granted about its object.
structure Arguments (method : Bytes) (obj : AMFObject) : Prop where
  connect : method = text "connect" → Named (text "tcUrl") obj ∧ 3 ≤ obj.length ∧
    ∀ name inner, obj[2]? = some (.object name inner) → Named (text "app") inner
  createStream : method = text "createStream" → 2 ≤ obj.length
  result : method = text "_result" → 2 ≤ obj.length
  error : method = text "_error" → ∃ name inner, obj[3]? = some (.object name inner) ∧ Named (text "description") inner
  play : method = text "play" → 4 ≤ obj.length
  publish : method = text "publish" → 4 ≤ obj.length

theorem or_some_iff {α : Type} (left right : Option α) :
    (∃ value, left.or right = some value) ↔ (∃ value, left = some value) ∨ ∃ value, right = some value := by
  cases left <;> simp

mutual
theorem property_named_iff (name : Bytes) (obj : AMFObject) :
    (∃ p, propertyNamed name obj = some p) ↔ Named name obj := by
  cases obj with
  | nil => simp [propertyNamed, Named, everywhere]
  | cons p rest =>
      have inside := property_inside_iff name p
      have later := property_named_iff name rest
      rw [propertyNamed, Named, everywhere]
      by_cases same : p.name = name
      · simp [same]
      · rw [if_neg same, or_some_iff, inside, later, Named]
        simp only [List.mem_cons, List.mem_append]
        constructor
        · rintro (⟨found, deep, named⟩ | ⟨found, listed, named⟩)
          · exact ⟨found, .inr (.inl deep), named⟩
          · exact ⟨found, .inr (.inr listed), named⟩
        · rintro ⟨found, rfl | deep | listed, named⟩
          · exact absurd named same
          · exact .inl ⟨found, deep, named⟩
          · exact .inr ⟨found, listed, named⟩

theorem property_inside_iff (name : Bytes) (p : AMFAny) :
    (∃ found, propertyInside name p = some found) ↔ ∃ found ∈ within p, found.name = name := by
  cases p with
  | object _ properties => exact property_named_iff name properties
  | _ => simp [propertyInside, within]
end

theorem property_nat (index : Nat) (obj : AMFObject) : property index obj = obj[index]? := by
  rw [property]
  by_cases inside : index < obj.length
  · rw [if_neg (by omega)]
    rfl
  · rw [if_pos (by omega), List.getElem?_eq_none (Nat.le_of_not_lt inside)]

theorem property_some_iff (index : Nat) (obj : AMFObject) : (∃ p, property index obj = some p) ↔ index < obj.length := by
  rw [property_nat]
  constructor
  · rintro ⟨p, there⟩
    exact (List.getElem?_eq_some_iff.mp there).1
  · intro inside
    exact ⟨obj[index], List.getElem?_eq_getElem inside⟩

theorem deref_then_iff {α : Type} (ptr : Option α) (next : α → Except CommandFault Command) :
    (∃ command, (deref ptr >>= next) = .ok command) ↔ ∃ value, ptr = some value ∧ ∃ command, next value = .ok command := by
  cases ptr with
  | none =>
      constructor
      · rintro ⟨_, impossible⟩
        cases impossible
      · rintro ⟨_, impossible, _⟩
        cases impossible
  | some value =>
      constructor
      · intro done
        exact ⟨value, rfl, done⟩
      · rintro ⟨_, same, done⟩
        cases same
        exact done

theorem deref_last_iff {α : Type} (ptr : Option α) (last : α → Command) :
    (∃ command, (deref ptr >>= fun value => .ok (last value)) = .ok command) ↔ ∃ value, ptr = some value := by
  rw [deref_then_iff]
  simp

theorem handle_connect_iff (obj : AMFObject) :
    (∃ command, handleConnect obj = .ok command) ↔ Named (text "tcUrl") obj ∧ 3 ≤ obj.length ∧
      ∀ name inner, obj[2]? = some (.object name inner) → Named (text "app") inner := by
  rw [handleConnect, deref_then_iff]
  rw [← property_named_iff]
  have place : property RTMP_APP_INDEX obj = obj[2]? := property_nat 2 obj
  simp only [deref_then_iff, place]
  constructor
  · rintro ⟨tcUrl, found, sub, there, done⟩
    refine ⟨⟨tcUrl, found⟩, (List.getElem?_eq_some_iff.mp there).1, ?_⟩
    intro name inner same
    rw [there] at same
    cases same
    obtain ⟨app, named, _⟩ := (deref_then_iff _ _).mp done
    exact (property_named_iff _ _).mp ⟨app, named⟩
  · rintro ⟨⟨tcUrl, found⟩, long, named⟩
    refine ⟨tcUrl, found, obj[2], List.getElem?_eq_getElem long, ?_⟩
    cases third : obj[2] with
    | object name inner =>
        obtain ⟨app, found'⟩ := (property_named_iff _ _).mpr
          (named name inner (by rw [List.getElem?_eq_getElem long, third]))
        exact (deref_last_iff _ _).mpr ⟨app, found'⟩
    | _ => exact ⟨_, rfl⟩

theorem handle_error_iff (obj : AMFObject) :
    (∃ command, handleError obj = .ok command) ↔
      ∃ name inner, obj[3]? = some (.object name inner) ∧ Named (text "description") inner := by
  have place : property 3 obj = obj[3]? := property_nat 3 obj
  rw [handleError, place]
  simp only [deref_then_iff]
  constructor
  · rintro ⟨fourth, there, inner, isObject, description, named, _⟩
    cases fourth with
    | object name properties =>
        cases isObject
        exact ⟨name, inner, there, (property_named_iff _ _).mp ⟨description, named⟩⟩
    | _ => cases isObject
  · rintro ⟨name, inner, there, named⟩
    obtain ⟨description, found⟩ := (property_named_iff _ _).mpr named
    exact ⟨.object name inner, there, inner, rfl, description, found, _, rfl⟩

theorem handle_second_iff (obj : AMFObject) :
    ((∃ command, handleCreateStream obj = .ok command) ↔ 2 ≤ obj.length) ∧
      ((∃ command, handleResult obj = .ok command) ↔ 2 ≤ obj.length) := by
  have place := property_some_iff 1 obj
  exact ⟨(deref_last_iff _ _).trans place, (deref_last_iff _ _).trans place⟩

theorem handle_fourth_iff (obj : AMFObject) :
    ((∃ command, handlePlay obj = .ok command) ↔ 4 ≤ obj.length) ∧
      ((∃ command, handlePublish obj = .ok command) ↔ 4 ≤ obj.length) := by
  have second := property_some_iff 1 obj
  have fourth := property_some_iff 3 obj
  rw [handlePlay, handlePublish, deref_then_iff, deref_then_iff]
  simp only [deref_last_iff]
  constructor <;>
    constructor
  · rintro ⟨_, _, there⟩
    exact fourth.mp there
  · intro long
    obtain ⟨tranId, here⟩ := second.mpr (by omega)
    exact ⟨tranId, here, fourth.mpr long⟩
  · rintro ⟨_, _, there⟩
    exact fourth.mp there
  · intro long
    obtain ⟨tranId, here⟩ := second.mpr (by omega)
    exact ⟨tranId, here, fourth.mpr long⟩

theorem arguments_iff (method : Bytes) (obj : AMFObject) :
    (∀ handler, commands method = some handler → ∃ command, handler obj = .ok command) ↔ Arguments method obj := by
  have only : ∀ {handler : AMFObject → Except CommandFault Command} {name : Bytes}, commands name = some handler →
      ((∀ other, commands name = some other → ∃ command, other obj = .ok command) ↔
        ∃ command, handler obj = .ok command) := by
    intro handler name found
    constructor
    · exact fun all => all handler found
    · intro done other same
      cases found.symm.trans same
      exact done
  by_cases connect : method = text "connect"
  · subst connect
    rw [only rfl, handle_connect_iff]
    constructor
    · exact fun shape => ⟨fun _ => shape, fun h => absurd h (by decide), fun h => absurd h (by decide),
        fun h => absurd h (by decide), fun h => absurd h (by decide), fun h => absurd h (by decide)⟩
    · exact fun arguments => arguments.connect rfl
  by_cases createStream : method = text "createStream"
  · subst createStream
    rw [only rfl, (handle_second_iff obj).1]
    constructor
    · exact fun shape => ⟨fun h => absurd h (by decide), fun _ => shape, fun _ => shape, fun h => absurd h (by decide),
        fun h => absurd h (by decide), fun h => absurd h (by decide)⟩
    · exact fun arguments => arguments.createStream rfl
  by_cases result : method = text "_result"
  · subst result
    rw [only rfl, (handle_second_iff obj).2]
    constructor
    · exact fun shape => ⟨fun h => absurd h (by decide), fun _ => shape, fun _ => shape, fun h => absurd h (by decide),
        fun h => absurd h (by decide), fun h => absurd h (by decide)⟩
    · exact fun arguments => arguments.result rfl
  by_cases error : method = text "_error"
  · subst error
    rw [only rfl, handle_error_iff]
    constructor
    · exact fun shape => ⟨fun h => absurd h (by decide), fun h => absurd h (by decide), fun h => absurd h (by decide),
        fun _ => shape, fun h => absurd h (by decide), fun h => absurd h (by decide)⟩
    · exact fun arguments => arguments.error rfl
  by_cases play : method = text "play"
  · subst play
    rw [only rfl, (handle_fourth_iff obj).1]
    constructor
    · exact fun shape => ⟨fun h => absurd h (by decide), fun h => absurd h (by decide), fun h => absurd h (by decide),
        fun h => absurd h (by decide), fun _ => shape, fun _ => shape⟩
    · exact fun arguments => arguments.play rfl
  by_cases publish : method = text "publish"
  · subst publish
    rw [only rfl, (handle_fourth_iff obj).2]
    constructor
    · exact fun shape => ⟨fun h => absurd h (by decide), fun h => absurd h (by decide), fun h => absurd h (by decide),
        fun h => absurd h (by decide), fun _ => shape, fun _ => shape⟩
    · exact fun arguments => arguments.publish rfl
  have unknown : commands method = none := by
    rw [commands, if_neg connect, if_neg createStream, if_neg result, if_neg error, if_neg play, if_neg publish]
  constructor
  · exact fun _ => ⟨fun h => absurd h connect, fun h => absurd h createStream, fun h => absurd h result,
      fun h => absurd h error, fun h => absurd h play, fun h => absurd h publish⟩
  · intro _ handler found
    cases unknown.symm.trans found

theorem command_pointers_set_iff (amf3 : Bool) (payload : Bytes) (decoded : Decoded)
    (inside : decode false (commandBody amf3 payload) = .ok decoded) :
    (∃ command, handleAmfCommand amf3 payload = .ok command) ↔
      decoded.returned = none ∨ ∃ method, decoded.properties[0]? = some method ∧ Arguments method.str decoded.properties := by
  rw [handleAmfCommand, inside]
  dsimp only
  cases returned : decoded.returned with
  | none => exact ⟨fun _ => .inl rfl, fun _ => ⟨.decodeFailed, rfl⟩⟩
  | some size =>
      have place : property 0 decoded.properties = decoded.properties[0]? := property_nat 0 _
      rw [if_neg (by simp), deref_then_iff, place]
      simp only [reduceCtorEq, false_or, ← arguments_iff]
      refine exists_congr fun method => and_congr_right fun _ => ?_
      cases found : commands method.str with
      | none =>
          constructor
          · intro _ handler impossible
            cases impossible
          · exact fun _ => ⟨_, rfl⟩
      | some handler =>
          constructor
          · intro done other same
            cases same
            exact done
          · exact fun all => all handler rfl

theorem command_pointers_set_play :
    ∃ decoded, decode false (commandBody true [17, 2, 0, 4, 112, 108, 97, 121]) = .ok decoded ∧
      ((∃ command, handleAmfCommand true [17, 2, 0, 4, 112, 108, 97, 121] = .ok command) ↔
        decoded.returned = none ∨
          ∃ method, decoded.properties[0]? = some method ∧ Arguments method.str decoded.properties) := by
  have inside : (decode false (commandBody true [17, 2, 0, 4, 112, 108, 97, 121])).toBool = true := by decide +kernel
  cases result : decode false (commandBody true [17, 2, 0, 4, 112, 108, 97, 121]) with
  | error fault =>
      rw [result] at inside
      cases inside
  | ok decoded => exact ⟨decoded, rfl, command_pointers_set_iff true _ decoded result⟩

-- An empty payload decodes to an object without a property 0.
theorem empty_command_crashes :
    decode false (commandBody false []) = .ok { returned := some 0 } ∧
      ¬ ∃ command, handleAmfCommand false [] = .ok command := by
  refine ⟨rfl, ?_⟩
  rintro ⟨command, impossible⟩
  cases impossible

end Lssvc.Mmedia
