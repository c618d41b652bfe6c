import OpenJobSpec.Foundation.ExceptRules
import OpenJobSpec.Foundation.IndexedUpdates
import OpenJobSpec.Python.Access
import OpenJobSpec.Python.JsonValue

/-! # The transport's own decoding of `google.protobuf.Value`

`_from_proto_value` takes dictionaries with one of six keys for tagged values.
Each call looks at the keys once, and goes on with the items or members it finds
behind a tag; those lie deeper in the value, so the recursion ends.
-/
namespace OpenJobSpec.Grpc
open ExceptRules IndexedUpdates

/-! ## A measure of values -/

mutual

def weight : Json → ℕ
  | .null | .bool _ | .int _ | .float _ | .str _ => 1
  | .array xs => 1 + weightItems xs
  | .object fields => 1 + weightMembers fields

def weightItems : List Json → ℕ
  | [] => 0
  | x :: xs => weight x + weightItems xs

def weightMembers : List (String × Json) → ℕ
  | [] => 0
  | (_, v) :: rest => 1 + weight v + weightMembers rest

end

theorem weight_item {x : Json} {xs : List Json} (h : x ∈ xs) : weight x ≤ weightItems xs := by
  induction xs with
  | nil => cases h
  | cons y ys ih =>
    rw [weightItems]
    rcases List.mem_cons.mp h with rfl | hy
    · omega
    · have hle := ih hy
      omega

theorem weight_member {entry : String × Json} {fields : Fields} (h : entry ∈ fields) :
    weight entry.2 < 1 + weightMembers fields := by
  induction fields with
  | nil => cases h
  | cons first rest ih =>
    obtain ⟨key, value⟩ := first
    rw [weightMembers]
    rcases List.mem_cons.mp h with rfl | hrest
    · dsimp only
      omega
    · have hlt := ih hrest
      omega

theorem mem_of_lookup {fields : Fields} {key : String} {value : Json}
    (h : fields.lookup key = some value) : (key, value) ∈ fields := by
  obtain ⟨before, after, hsplit, _⟩ := List.lookup_eq_some_iff.mp h
  rw [hsplit]
  simp

theorem weight_lookup {fields : Fields} {key : String} {value : Json}
    (h : fields.lookup key = some value) : weight value < weight (.object fields) := by
  rw [weight]
  exact weight_member (mem_of_lookup h)

theorem weight_get {fields : Fields} {key : String} {default : Json}
    (h : weight default ≤ 1) :
    weight (Fields.get fields key default) ≤ weight (.object fields) := by
  unfold Fields.get
  cases hfound : fields.lookup key with
  | none =>
    rw [weight]
    exact h.trans (Nat.le_add_right 1 _)
  | some value => exact (weight_lookup hfound).le

theorem weight_iterate {value x : Json} {items : List Json} (h : value.iterate = .ok items)
    (hx : x ∈ items) : weight x ≤ weight value := by
  cases value with
  | array xs =>
    cases h
    rw [weight]
    exact (weight_item hx).trans (Nat.le_add_left _ _)
  | str s =>
    cases h
    obtain ⟨c, _, rfl⟩ := List.mem_map.mp hx
    exact le_rfl
  | object fields =>
    cases h
    obtain ⟨entry, _, rfl⟩ := List.mem_map.mp hx
    rw [weight, weight]
    exact Nat.le_add_right 1 _
  | null => cases h
  | bool b => cases h
  | int n => cases h
  | float q => cases h

/-! ## `_from_proto_value` -/

/-- What one look at a value's keys leads to. -/
inductive Unwrapped
  /-- a value that is returned as it is -/
  | plain (value : Json)
  | items (items : List Json)
  | members (fields : Fields)
  | fails (e : Exn)

/-- `value["list_value"].get("values", [])`, and the elements the comprehension visits. -/
def unwrapList (wrapper : Json) : Unwrapped :=
  match wrapper.getMethod "values" (.array []) with
  | .error e => .fails e
  | .ok values =>
    match values.iterate with
    | .error e => .fails e
    | .ok items => .items items

/-- `value["struct_value"].get("fields", {}).items()`. -/
def unwrapStruct (wrapper : Json) : Unwrapped :=
  match wrapper.getMethod "fields" (.object []) with
  | .error e => .fails e
  | .ok (.object fields) => .members fields
  | .ok other =>
    .fails (.builtin .attributeError ("'" ++ other.typeName ++ "' object has no attribute 'items'"))

def unwrap (value : Json) : Unwrapped :=
  match value with
  | .object fields =>
    match fields.lookup "string_value", fields.lookup "number_value", fields.lookup "bool_value",
        fields.lookup "null_value", fields.lookup "list_value", fields.lookup "struct_value" with
    | some text, _, _, _, _, _ => .plain text
    | none, some number, _, _, _, _ => .plain number
    | none, none, some bool, _, _, _ => .plain bool
    | none, none, none, some _, _, _ => .plain .null
    | none, none, none, none, some wrapper, _ => unwrapList wrapper
    | none, none, none, none, none, some wrapper => unwrapStruct wrapper
    | none, none, none, none, none, none => .plain value
  | value => .plain value

theorem unwrapList_eq {wrapper : Json} {items : List Json} (h : unwrapList wrapper = .items items) :
    ∃ fields values, wrapper = .object fields ∧ Fields.get fields "values" (.array []) = values ∧
      values.iterate = .ok items := by
  cases wrapper with
  | object fields =>
    refine ⟨fields, _, rfl, rfl, ?_⟩
    unfold unwrapList at h
    rw [Json.getMethod_object] at h
    dsimp only at h
    split at h
    · cases h
    · cases h
      assumption
  | null | bool _ | int _ | float _ | str _ | array _ => cases h

theorem unwrapStruct_eq {wrapper : Json} {members : Fields}
    (h : unwrapStruct wrapper = .members members) :
    ∃ fields, wrapper = .object fields ∧
      Fields.get fields "fields" (.object []) = .object members := by
  cases wrapper with
  | object fields =>
    refine ⟨fields, rfl, ?_⟩
    unfold unwrapStruct at h
    rw [Json.getMethod_object] at h
    split at h
    · cases h
    · rename_i found
      cases h
      simpa using found
    · cases h
  | null | bool _ | int _ | float _ | str _ | array _ => cases h

theorem weight_unwrap_items {value x : Json} {items : List Json}
    (h : unwrap value = .items items) (hx : x ∈ items) : weight x < weight value := by
  unfold unwrap at h
  split at h
  next fields =>
    split at h <;> try cases h
    · rename_i wrapper _ _ _ _ _ hfound
      obtain ⟨inner, values, rfl, hvalues, hiter⟩ := unwrapList_eq h
      have hle : weight values ≤ weight (.object inner) := hvalues ▸ weight_get le_rfl
      exact (weight_iterate hiter hx).trans_lt (hle.trans_lt (weight_lookup hfound))
    · rename_i wrapper _ _ _ _ _ _
      unfold unwrapStruct at h
      split at h <;> cases h
  next => cases h

theorem weight_unwrap_members {value : Json} {members : Fields} {entry : String × Json}
    (h : unwrap value = .members members) (he : entry ∈ members) :
    weight entry.2 < weight value := by
  unfold unwrap at h
  split at h
  next fields =>
    split at h <;> try cases h
    · rename_i wrapper _ _ _ _ _ _
      unfold unwrapList at h
      split at h
      · cases h
      · split at h <;> cases h
    · rename_i wrapper _ _ _ _ _ hfound
      obtain ⟨inner, rfl, hinner⟩ := unwrapStruct_eq h
      have hle : weight (.object members) ≤ weight (.object inner) := hinner ▸ weight_get le_rfl
      have hlt : weight entry.2 < 1 + weightMembers members := weight_member he
      rw [weight] at hle
      exact (hlt.trans_le hle).trans (weight_lookup hfound)
  next => cases h

/-- Convert a tagged value back, and leave any other value as it is. -/
def fromProtoValue (value : Json) : Except Exn Json :=
  match _h : unwrap value with
  | .plain value => .ok value
  | .fails e => .error e
  | .items items => do
    let decoded ← items.attach.mapM fun item => fromProtoValue item.1
    return .array decoded
  | .members fields => do
    let decoded ← fields.attach.mapM fun entry => do
      let member ← fromProtoValue entry.1.2
      return (entry.1.1, member)
    return .object decoded
termination_by weight value
decreasing_by
  · exact weight_unwrap_items _h item.2
  · exact weight_unwrap_members _h entry.2

def fromProtoMember (entry : String × Json) : Except Exn (String × Json) := do
  let member ← fromProtoValue entry.2
  return (entry.1, member)

variable {value decoded : Json}

theorem fromProtoValue_plain {plain : Json} (h : unwrap value = .plain plain) :
    fromProtoValue value = .ok plain := by
  unfold fromProtoValue
  split <;> simp_all

theorem fromProtoValue_fails {e : Exn} (h : unwrap value = .fails e) :
    fromProtoValue value = .error e := by
  unfold fromProtoValue
  split <;> simp_all

theorem fromProtoValue_items {items : List Json} (h : unwrap value = .items items) :
    fromProtoValue value = (items.mapM fromProtoValue >>= fun decoded => .ok (.array decoded)) := by
  have hunattach : items.attach.mapM (fun item => fromProtoValue item.1)
      = items.mapM fromProtoValue := by
    rw [List.mapM_subtype (g := fromProtoValue) (fun _ _ => rfl), List.unattach_attach]
  rw [← hunattach]
  conv_lhs => unfold fromProtoValue
  split <;> rename_i heq <;> rw [h] at heq <;> cases heq
  rfl

theorem fromProtoValue_members {fields : Fields} (h : unwrap value = .members fields) :
    fromProtoValue value =
      (fields.mapM fromProtoMember >>= fun decoded => .ok (.object decoded)) := by
  have hunattach : fields.attach.mapM (fun entry => fromProtoMember entry.1)
      = fields.mapM fromProtoMember := by
    rw [List.mapM_subtype (g := fromProtoMember) (fun _ _ => rfl), List.unattach_attach]
  rw [← hunattach]
  conv_lhs => unfold fromProtoValue
  split <;> rename_i heq <;> rw [h] at heq <;> cases heq
  rfl

/-! ## Where a value is left as it is -/

def tags : List String :=
  ["string_value", "number_value", "bool_value", "null_value", "list_value", "struct_value"]

/-- An object with a key that the decoding takes for a tag. -/
def isTagged : Json → Bool
  | .object fields => tags.any (Fields.has fields)
  | _ => false

theorem unwrap_untagged (h : isTagged value = false) : unwrap value = .plain value := by
  cases value with
  | object fields =>
    simp only [isTagged, tags, List.any_cons, List.any_nil, Fields.has, Bool.or_false,
      Bool.or_eq_false_iff, Option.isSome_eq_false_iff, Option.isNone_iff_eq_none] at h
    obtain ⟨htext, hnumber, hbool, hnull, hlist, hstruct⟩ := h
    simp only [unwrap, htext, hnumber, hbool, hnull, hlist, hstruct]
  | null | bool _ | int _ | float _ | str _ | array _ => rfl

/-- What a look at a tagged value leads to. -/
theorem unwrap_tagged (h : isTagged value = true) : ∃ fields, value = .object fields ∧
    ((∃ tag inner, fields.lookup tag = some inner ∧ unwrap value = .plain inner) ∨
      unwrap value = .plain .null ∨
      (∃ wrapper, fields.lookup "list_value" = some wrapper ∧ unwrap value = unwrapList wrapper) ∨
      (∃ wrapper, fields.lookup "struct_value" = some wrapper ∧
        unwrap value = unwrapStruct wrapper)) := by
  cases value with
  | object fields =>
    refine ⟨fields, rfl, ?_⟩
    cases htext : fields.lookup "string_value" with
    | some text => exact Or.inl ⟨_, text, htext, by simp [unwrap, htext]⟩
    | none =>
      cases hnumber : fields.lookup "number_value" with
      | some number => exact Or.inl ⟨_, number, hnumber, by simp [unwrap, htext, hnumber]⟩
      | none =>
        cases hbool : fields.lookup "bool_value" with
        | some bool => exact Or.inl ⟨_, bool, hbool, by simp [unwrap, htext, hnumber, hbool]⟩
        | none =>
          cases hnull : fields.lookup "null_value" with
          | some marker =>
            exact Or.inr (Or.inl (by simp [unwrap, htext, hnumber, hbool, hnull]))
          | none =>
            cases hlist : fields.lookup "list_value" with
            | some wrapper =>
              refine Or.inr (Or.inr (Or.inl ⟨wrapper, rfl, ?_⟩))
              simp [unwrap, htext, hnumber, hbool, hnull, hlist]
            | none =>
              cases hstruct : fields.lookup "struct_value" with
              | some wrapper =>
                refine Or.inr (Or.inr (Or.inr ⟨wrapper, rfl, ?_⟩))
                simp [unwrap, htext, hnumber, hbool, hnull, hlist, hstruct]
              | none =>
                simp [isTagged, tags, Fields.has, htext, hnumber, hbool, hnull, hlist, hstruct] at h
  | null | bool _ | int _ | float _ | str _ | array _ => cases h

/-! ## No value decodes to one that holds it -/

open JsonValue

theorem child_of_lookup {fields : Fields} {key : String} {inner : Json}
    (h : fields.lookup key = some inner) : Child inner.denote (Json.object fields).denote := by
  rw [Json.denote_object]
  have hmember : (fields.lookup key).map Json.denote = some inner.denote := by
    rw [h]
    rfl
  exact Child.member hmember

theorem child_of_mem {items : List Json} {item : Json} (h : item ∈ items) :
    Child item.denote (Json.array items).denote := by
  rw [Json.denote_array]
  exact Child.item (List.mem_map_of_mem h)

theorem child_of_get {fields : Fields} {key : String} {default inner : Json}
    (h : Fields.get fields key default = inner) (hdefault : inner ≠ default) :
    Child inner.denote (Json.object fields).denote := by
  unfold Fields.get at h
  cases hfound : fields.lookup key with
  | none =>
    rw [hfound] at h
    exact absurd h.symm hdefault
  | some found =>
    rw [hfound] at h
    exact h ▸ child_of_lookup hfound

/-- What a list comprehension visits lies in the value it goes through, or is a text. -/
theorem inside_of_unwrapList {wrapper item : Json} {items : List Json}
    (h : unwrapList wrapper = .items items) (hi : item ∈ items) :
    Inside item.denote wrapper.denote ∨ ∃ text, item = .str text := by
  obtain ⟨fields, values, rfl, hvalues, hiter⟩ := unwrapList_eq h
  cases values with
  | array xs =>
    cases hiter
    refine Or.inl ((child_of_mem hi).inside.trans (child_of_get hvalues ?_).inside)
    intro hempty
    cases hempty
    cases hi
  | str s =>
    cases hiter
    obtain ⟨c, _, rfl⟩ := List.mem_map.mp hi
    exact Or.inr ⟨_, rfl⟩
  | object members =>
    cases hiter
    obtain ⟨entry, _, rfl⟩ := List.mem_map.mp hi
    exact Or.inr ⟨_, rfl⟩
  | null => cases hiter
  | bool b => cases hiter
  | int n => cases hiter
  | float q => cases hiter

theorem inside_of_unwrapStruct {wrapper : Json} {members : Fields} {key : String} {inner : Json}
    (h : unwrapStruct wrapper = .members members) (hm : members.lookup key = some inner) :
    Inside inner.denote wrapper.denote := by
  obtain ⟨fields, rfl, hmembers⟩ := unwrapStruct_eq h
  refine (child_of_lookup hm).inside.trans (child_of_get hmembers ?_).inside
  intro hempty
  cases hempty
  cases hm

/-- The members of a decoded object are the decoded members. -/
theorem lookup_decoded {fields decoded : Fields}
    (h : List.Forall₂ (fun entry out => fromProtoMember entry = .ok out) fields decoded)
    {key : String} {out : Json} (hout : decoded.lookup key = some out) :
    ∃ inner, fields.lookup key = some inner ∧ fromProtoValue inner = .ok out := by
  induction h with
  | nil => cases hout
  | @cons entry first rest outs hfirst _ ih =>
    obtain ⟨name, inner⟩ := entry
    obtain ⟨member, hmember, hpair⟩ := bind_eq_ok.mp hfirst
    cases hpair
    rw [List.lookup_cons] at hout ⊢
    by_cases hkey : (key == name) = true
    · simp only [hkey] at hout ⊢
      cases hout
      exact ⟨inner, rfl, hmember⟩
    · rw [Bool.not_eq_true] at hkey
      simp only [hkey] at hout ⊢
      exact ih hout

theorem not_inside_scalar {v : JsonValue} {outer : Json} (h : Inside v outer.denote) :
    (∃ xs, outer = .array xs) ∨ ∃ fields, outer = .object fields := by
  obtain ⟨mid, _, hlast⟩ := Relation.TransGen.tail'_iff.mp h
  cases outer with
  | array xs => exact Or.inl ⟨xs, rfl⟩
  | object fields => exact Or.inr ⟨fields, rfl⟩
  | null => cases hlast
  | bool b => cases hlast
  | int n => cases hlast
  | float q => cases hlast
  | str s => cases hlast

/-- The last step of the way up to a value. -/
theorem inside_array {v : JsonValue} {xs : List Json} (h : Inside v (Json.array xs).denote) :
    ∃ x ∈ xs, v = x.denote ∨ Inside v x.denote := by
  obtain ⟨mid, hmid, hlast⟩ := Relation.TransGen.tail'_iff.mp h
  rw [Json.denote_array] at hlast
  cases hlast with
  | item hmem =>
    obtain ⟨x, hx, rfl⟩ := List.mem_map.mp hmem
    exact ⟨x, hx, Relation.reflTransGen_iff_eq_or_transGen.mp hmid |>.imp Eq.symm id⟩

theorem inside_object {v : JsonValue} {fields : Fields}
    (h : Inside v (Json.object fields).denote) :
    ∃ key x, fields.lookup key = some x ∧ (v = x.denote ∨ Inside v x.denote) := by
  obtain ⟨mid, hmid, hlast⟩ := Relation.TransGen.tail'_iff.mp h
  rw [Json.denote_object] at hlast
  cases hlast with
  | member hmem =>
    rename_i key
    obtain ⟨x, hx, rfl⟩ := Option.map_eq_some_iff.mp hmem
    exact ⟨key, x, hx, Relation.reflTransGen_iff_eq_or_transGen.mp hmid |>.imp Eq.symm id⟩

theorem fromProtoValue_str {text : String} (h : fromProtoValue (.str text) = .ok decoded) :
    decoded = .str text := by
  rw [fromProtoValue_plain (unwrap_untagged rfl)] at h
  cases h
  rfl

theorem unwrapList_cases (wrapper : Json) :
    (∃ items, unwrapList wrapper = .items items) ∨ ∃ e, unwrapList wrapper = .fails e := by
  unfold unwrapList
  split
  · exact Or.inr ⟨_, rfl⟩
  · split
    · exact Or.inr ⟨_, rfl⟩
    · exact Or.inl ⟨_, rfl⟩

theorem unwrapStruct_cases (wrapper : Json) :
    (∃ members, unwrapStruct wrapper = .members members) ∨
      ∃ e, unwrapStruct wrapper = .fails e := by
  unfold unwrapStruct
  split
  · exact Or.inr ⟨_, rfl⟩
  · exact Or.inl ⟨_, rfl⟩
  · exact Or.inr ⟨_, rfl⟩

/-- What a tagged value decodes to. -/
inductive Decoded (fields : Fields) (value decoded : Json) : Prop
  | member (tag : String) (h : fields.lookup tag = some decoded)
  | null (h : decoded = .null)
  | array (wrapper : Json) (items outs : List Json)
      (hwrapper : fields.lookup "list_value" = some wrapper)
      (hitems : unwrapList wrapper = .items items) (hunwrap : unwrap value = .items items)
      (houts : List.Forall₂ (fun item out => fromProtoValue item = .ok out) items outs)
      (h : decoded = .array outs)
  | object (wrapper : Json) (members outs : Fields)
      (hwrapper : fields.lookup "struct_value" = some wrapper)
      (hmembers : unwrapStruct wrapper = .members members)
      (hunwrap : unwrap value = .members members)
      (houts : List.Forall₂ (fun entry out => fromProtoMember entry = .ok out) members outs)
      (h : decoded = .object outs)

theorem decoded_of_tagged (htagged : isTagged value = true)
    (h : fromProtoValue value = .ok decoded) :
    ∃ fields, value = .object fields ∧ Decoded fields value decoded := by
  obtain ⟨fields, hvalue, ⟨tag, inner, hinner, hunwrap⟩ | hunwrap | ⟨wrapper, hwrapper, hunwrap⟩
    | ⟨wrapper, hwrapper, hunwrap⟩⟩ := unwrap_tagged htagged
  · rw [fromProtoValue_plain hunwrap] at h
    cases h
    exact ⟨fields, hvalue, .member tag hinner⟩
  · rw [fromProtoValue_plain hunwrap] at h
    cases h
    exact ⟨fields, hvalue, .null rfl⟩
  · rcases unwrapList_cases wrapper with ⟨items, hitems⟩ | ⟨e, hfails⟩
    · rw [fromProtoValue_items (hunwrap.trans hitems)] at h
      obtain ⟨outs, houts, hdecoded⟩ := bind_eq_ok.mp h
      cases hdecoded
      exact ⟨fields, hvalue, .array wrapper items outs hwrapper hitems (hunwrap.trans hitems)
        (mapM_eq_ok.mp houts) rfl⟩
    · rw [fromProtoValue_fails (hunwrap.trans hfails)] at h
      cases h
  · rcases unwrapStruct_cases wrapper with ⟨members, hmembers⟩ | ⟨e, hfails⟩
    · rw [fromProtoValue_members (hunwrap.trans hmembers)] at h
      obtain ⟨outs, houts, hdecoded⟩ := bind_eq_ok.mp h
      cases hdecoded
      exact ⟨fields, hvalue, .object wrapper members outs hwrapper hmembers
        (hunwrap.trans hmembers) (mapM_eq_ok.mp houts) rfl⟩
    · rw [fromProtoValue_fails (hunwrap.trans hfails)] at h
      cases h

theorem not_above_text {v : JsonValue} {text : String} : ¬ Inside v (Json.str text).denote := by
  intro h
  rcases not_inside_scalar h with ⟨xs, hxs⟩ | ⟨fields, hfields⟩
  · cases hxs
  · cases hfields

theorem not_above_null {v : JsonValue} : ¬ Inside v Json.null.denote := by
  intro h
  rcases not_inside_scalar h with ⟨xs, hxs⟩ | ⟨fields, hfields⟩
  · cases hxs
  · cases hfields

/-- The induction is on the value: what lies above the decoded value lies above one of its items
or members, each decoded from something deeper. -/
theorem decoded_not_above (h : fromProtoValue value = .ok decoded) :
    ¬ Inside value.denote decoded.denote := by
  induction hw : weight value using Nat.strong_induction_on generalizing value decoded with
  | _ n ih =>
    intro habove
    cases htagged : isTagged value with
    | false =>
      rw [fromProtoValue_plain (unwrap_untagged htagged)] at h
      cases h
      exact inside_irrefl _ habove
    | true =>
      obtain ⟨fields, rfl, hdecoded⟩ := decoded_of_tagged htagged h
      cases hdecoded with
      | member tag hinner =>
        exact inside_irrefl _ ((child_of_lookup hinner).inside.trans habove)
      | null hnull =>
        subst hnull
        exact not_above_null habove
      | array wrapper items outs hwrapper hitems hunwrap houts hdecoded =>
        subst hdecoded
        obtain ⟨out, hout, hin⟩ := inside_array habove
        obtain ⟨item, hitem, hdecode⟩ := exists_mem_of_forall₂ houts hout
        rcases inside_of_unwrapList hitems hitem with hbelow | ⟨text, rfl⟩
        · have hitem_below : Inside item.denote (Json.object fields).denote :=
            hbelow.trans (child_of_lookup hwrapper).inside
          refine ih _ (hw ▸ weight_unwrap_items hunwrap hitem) hdecode rfl ?_
          rcases hin with heq | hin
          · exact heq ▸ hitem_below
          · exact hitem_below.trans hin
        · rw [fromProtoValue_str hdecode] at hin
          rcases hin with heq | hin
          · cases heq
          · exact not_above_text hin
      | object wrapper members outs hwrapper hmembers hunwrap houts hdecoded =>
        subst hdecoded
        obtain ⟨key, out, hout, hin⟩ := inside_object habove
        obtain ⟨inner, hinner, hdecode⟩ := lookup_decoded houts hout
        have hinner_below : Inside inner.denote (Json.object fields).denote :=
          (inside_of_unwrapStruct hmembers hinner).trans (child_of_lookup hwrapper).inside
        have hlt := weight_unwrap_members hunwrap (mem_of_lookup hinner)
        refine ih _ (hw ▸ hlt) hdecode rfl ?_
        rcases hin with heq | hin
        · exact heq ▸ hinner_below
        · exact hinner_below.trans hin

/-- A tagged value never decodes to itself. -/
theorem decoded_ne (htagged : isTagged value = true) (h : fromProtoValue value = .ok decoded) :
    decoded.denote ≠ value.denote := by
  obtain ⟨fields, rfl, hdecoded⟩ := decoded_of_tagged htagged h
  intro heq
  cases hdecoded with
  | member tag hinner =>
    have hchild := (child_of_lookup hinner).inside
    rw [heq] at hchild
    exact inside_irrefl _ hchild
  | null hnull =>
    subst hnull
    cases heq
  | array wrapper items outs hwrapper hitems hunwrap houts hdecoded =>
    subst hdecoded
    cases heq
  | object wrapper members outs hwrapper hmembers hunwrap houts hdecoded =>
    subst hdecoded
    rw [Json.denote_object, Json.denote_object, JsonValue.object.injEq] at heq
    -- the decoded object would have to hold the wrapper, decoded from something inside it
    have hkey := congrFun heq "struct_value"
    rw [hwrapper] at hkey
    obtain ⟨out, hout, hout_eq⟩ := Option.map_eq_some_iff.mp hkey
    obtain ⟨inner, hinner, hdecode⟩ := lookup_decoded houts hout
    apply decoded_not_above hdecode
    rw [hout_eq]
    exact inside_of_unwrapStruct hmembers hinner

/-- The decoding keeps a value exactly when the value is not tagged. -/
theorem fromProtoValue_kept_iff :
    (∃ decoded, fromProtoValue value = .ok decoded ∧ decoded.denote = value.denote) ↔
      isTagged value = false := by
  constructor
  · rintro ⟨decoded, hdecode, heq⟩
    rw [← Bool.not_eq_true]
    exact fun htagged => decoded_ne htagged hdecode heq
  · intro hplain
    exact ⟨value, fromProtoValue_plain (unwrap_untagged hplain), rfl⟩

end OpenJobSpec.Grpc
