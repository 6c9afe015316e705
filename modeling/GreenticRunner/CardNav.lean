import GreenticRunner.ApprovalGate

/-! # The card that a button names

    A card button's submit carries where to go next under one of three keys.  Two readers resolve
    them: `card_nav_target` skips a value that names nothing, `inject_card_route` takes the FIRST
    key that is there and looks at its value only then.

    * `findSome?_bind_iff` — when looking first and reading first find the same;
    * `card_readers_agree_iff` — the readers agree unless a first key that names nothing stands
      before one that names a card. -/

namespace Greentic.CardNav

open Engine

/-- `CARD_NAV_META_KEYS`. -/
def CARD_NAV_META_KEYS : List String := ["routeToCardId", "toCardId", "nextCardId"]

/-- The card a value names: a string that is not blank. -/
def cardName (v : Json) : Option String := (v.asStr?.map trimmed).filter (· ≠ "")

/-- `card_nav_target`. -/
def cardNavTarget (metadata : Json) : Option String :=
  CARD_NAV_META_KEYS.findSome? fun key => (metadata.get? key).bind cardName

/-! ## The engine -/

/-- `is_card_invocation`. -/
def isCardInvocation (input : Json) : Bool :=
  (input.get? "card_source").isSome || (input.get? "card_spec").isSome

/-- `HostNode`, by the names of its component. -/
structure HostNode where
  componentId : String
  component : String

/-- `str::contains("adaptive-card")`. -/
def namesAdaptiveCard (s : String) : Bool := s.toList.tails.any "adaptive-card".toList.isPrefixOf

/-- `entry.pointer("/input/metadata/{key}")`. -/
def inputPointer (entry : Json) (key : String) : Option Json :=
  ((entry.get? "input").bind (·.get? "metadata")).bind (·.get? key)

/-- `entry.pointer("/metadata/{key}")`. -/
def outerPointer (entry : Json) (key : String) : Option Json :=
  (entry.get? "metadata").bind (·.get? key)

/-- The route of an entry. -/
def entryRoute (entry : Json) : Option String :=
  (((((((inputPointer entry "routeToCardId").or (outerPointer entry "routeToCardId")).or
    (inputPointer entry "toCardId")).or (outerPointer entry "toCardId")).or
    (inputPointer entry "nextCardId")).or (outerPointer entry "nextCardId"))).bind cardName

/-- The payload with a card selected. -/
def withCard (payload : Json) (route : String) : Json :=
  let fields := match payload with
    | .obj fields => fields
    | _ => []
  .obj (Json.setField (Json.setField fields "card_source" (.str "asset")) "card_spec"
    (.obj [("asset_path", .str s!"assets/cards/{route}.json")]))

/-- `inject_card_route`. -/
def injectCardRoute (payload entry : Json) (node : HostNode) : Json :=
  if !(namesAdaptiveCard node.componentId || namesAdaptiveCard node.component) ||
      isCardInvocation payload then payload
  else
    match entryRoute entry with
    | none => payload
    | some route => withCard payload route

/-! ## Where the two readers differ -/

/-- The metadata object of an entry, at one of its two places and not at the other. -/
def MetadataOf (entry metadata : Json) : Prop :=
  metadata.isObject = true ∧
    (((entry.get? "input").bind (·.get? "metadata") = some metadata ∧
        ∀ other, entry.get? "metadata" = some other → other.isObject = false) ∨
      (entry.get? "metadata" = some metadata ∧
        ∀ other, (entry.get? "input").bind (·.get? "metadata") = some other →
          other.isObject = false))

/-- The first key that is there names a card, or none of the keys does. -/
def FirstDecides (metadata : Json) : Prop :=
  ∀ v, CARD_NAV_META_KEYS.findSome? (metadata.get? ·) = some v →
    (cardName v).isSome = true ∨ ∀ key ∈ CARD_NAV_META_KEYS, (metadata.get? key).bind cardName = none

/-- **LOOKING FIRST AND READING FIRST**: taking the first entry and reading it finds what the first
    readable entry holds exactly when the first entry is readable or none is. -/
theorem findSome?_bind_iff {κ α β : Type} (look : κ → Option α) (read : α → Option β)
    (keys : List κ) :
    (keys.findSome? look).bind read = keys.findSome? (fun k => (look k).bind read) ↔
      ∀ v, keys.findSome? look = some v →
        (read v).isSome = true ∨ ∀ k ∈ keys, (look k).bind read = none := by
  induction keys with
  | nil => exact iff_of_true rfl fun v hv => nomatch hv
  | cons k keys ih =>
      rw [List.findSome?_cons, List.findSome?_cons]
      cases hk : look k with
      | none =>
          simp only [Option.bind_none, List.mem_cons, forall_eq_or_imp, hk, true_and]
          exact ih
      | some v =>
          simp only [Option.bind_some, List.mem_cons, forall_eq_or_imp, hk, Option.some.injEq,
            forall_eq']
          cases hv : read v with
          | some w => simp
          | none =>
              -- the first entry is not readable, so the others must not be
              simp only [Option.isSome_none, Bool.false_eq_true, false_or, true_and]
              rw [eq_comm, List.findSome?_eq_none_iff]

theorem get?_of_not_object {v : Json} (h : v.isObject = false) (key : String) : v.get? key = none := by
  cases v with
  | obj fields => cases h
  | null => rfl
  | bool b => rfl
  | num t => rfl
  | str s => rfl
  | arr items => rfl

/-- The engine reads the metadata of an entry wherever it sits. -/
theorem entryRoute_eq {entry metadata : Json} (h : MetadataOf entry metadata) :
    entryRoute entry = (CARD_NAV_META_KEYS.findSome? (metadata.get? ·)).bind cardName := by
  have hkey : ∀ key, (inputPointer entry key).or (outerPointer entry key) = metadata.get? key := by
    intro key
    rcases h.2 with ⟨hin, hout⟩ | ⟨hout, hin⟩
    · have hnone : outerPointer entry key = none := by
        rw [outerPointer]
        cases ho : entry.get? "metadata" with
        | none => rfl
        | some other => exact get?_of_not_object (hout other ho) key
      rw [inputPointer, hin, hnone, Option.or_none]
      rfl
    · have hnone : inputPointer entry key = none := by
        rw [inputPointer]
        cases hi : (entry.get? "input").bind (·.get? "metadata") with
        | none => rfl
        | some other => exact get?_of_not_object (hin other hi) key
      rw [outerPointer, hout, hnone, Option.none_or]
      rfl
  have hroute : entryRoute entry = (((metadata.get? "routeToCardId").or
      ((inputPointer entry "toCardId").or (outerPointer entry "toCardId"))).or
      ((inputPointer entry "nextCardId").or (outerPointer entry "nextCardId"))).bind cardName := by
    rw [← Option.or_assoc, ← Option.or_assoc, ← hkey]
    rfl
  rw [hroute, hkey, hkey]
  congr 1
  simp only [CARD_NAV_META_KEYS, List.findSome?_cons, List.findSome?_nil]
  cases metadata.get? "routeToCardId" with
  | some v => rfl
  | none =>
      cases metadata.get? "toCardId" with
      | some v => rfl
      | none =>
          cases metadata.get? "nextCardId" with
          | some v => rfl
          | none => rfl

/-- A selected card can be told from none, and from any other. -/
theorem withCard_inj {payload : Json} {a b : String} (h : withCard payload a = withCard payload b) :
    a = b := by
  have hspec := congrArg (·.get? "card_spec") h
  dsimp only [withCard] at hspec
  rw [Json.get?_setField_self, Json.get?_setField_self] at hspec
  simp only [Option.some.injEq, Json.obj.injEq, List.cons.injEq, Prod.mk.injEq, Json.str.injEq,
    true_and, and_true] at hspec
  have hlist := congrArg String.toList hspec
  simp only [String.toList_append, List.append_cancel_right_eq, List.append_cancel_left_eq] at hlist
  exact String.toList_inj.mp hlist

theorem isCardInvocation_withCard (payload : Json) (route : String) :
    isCardInvocation (withCard payload route) = true := by
  dsimp only [isCardInvocation, withCard]
  rw [Json.get?_setField_self]
  exact Bool.or_true _

/-- The payload with the card that the metadata names, if it names one. -/
def selected (payload : Json) : Option String → Json
  | none => payload
  | some card => withCard payload card

theorem selected_inj {payload : Json} (hp : isCardInvocation payload = false) {a b : Option String}
    (h : selected payload a = selected payload b) : a = b := by
  have hne : ∀ card, withCard payload card ≠ payload := by
    intro card he
    rw [← he, isCardInvocation_withCard] at hp
    cases hp
  cases a with
  | none =>
      cases b with
      | none => rfl
      | some card => exact absurd h.symm (hne card)
  | some card =>
      cases b with
      | none => exact absurd h (hne card)
      | some other => exact congrArg some (withCard_inj h)

/-- **WHEN THE TWO READERS AGREE**: the engine selects the card that `card_nav_target` names, and
    none where it names none, exactly when the first key that is there names a card or no key does. -/
theorem card_readers_agree_iff {entry metadata payload : Json} {node : HostNode}
    (hm : MetadataOf entry metadata)
    (hnode : (namesAdaptiveCard node.componentId || namesAdaptiveCard node.component) = true)
    (hp : isCardInvocation payload = false) :
    injectCardRoute payload entry node = selected payload (cardNavTarget metadata) ↔
      FirstDecides metadata := by
  have hinject : injectCardRoute payload entry node = selected payload (entryRoute entry) := by
    rw [injectCardRoute, hnode, hp]
    cases entryRoute entry with
    | none => rfl
    | some route => rfl
  rw [hinject, FirstDecides, ← findSome?_bind_iff, ← entryRoute_eq hm]
  constructor
  · intro h
    exact selected_inj hp h
  · intro h
    rw [h]
    rfl

/-- A submit that names a page under its last key. -/
def submit (first : Json) : Json :=
  .obj [("metadata", .obj [("nextCardId", .str "quote"), ("routeToCardId", first)])]

/-- The metadata of that submit. -/
def submitMetadata (first : Json) : Json := .obj [("nextCardId", .str "quote"), ("routeToCardId", first)]

theorem submit_metadata (first : Json) : MetadataOf (submit first) (submitMetadata first) :=
  ⟨rfl, Or.inr ⟨rfl, fun _ h => nomatch h⟩⟩

def cardNode : HostNode := ⟨"ai.greentic.component-adaptive-card", "adaptive-card"⟩

theorem card_readers_agree_page :
    FirstDecides (submitMetadata (.str " page ")) ∧
      injectCardRoute (.obj []) (submit (.str " page ")) cardNode =
        selected (.obj []) (cardNavTarget (submitMetadata (.str " page "))) := by
  have hfirst : FirstDecides (submitMetadata (.str " page ")) := by
    intro v hv
    cases (show some (Json.str " page ") = some v from hv)
    exact Or.inl (by decide +kernel)
  exact ⟨hfirst, (card_readers_agree_iff (submit_metadata _) (by decide +kernel) rfl).mpr hfirst⟩

/-- A blank first key hides the page from the engine, and not from `card_nav_target`. -/
theorem blank_first_key_hides_the_card :
    cardNavTarget (submitMetadata (.str "  ")) = some "quote" ∧
      ¬ (injectCardRoute (.obj []) (submit (.str "  ")) cardNode =
        selected (.obj []) (cardNavTarget (submitMetadata (.str "  ")))) := by
  refine ⟨by decide +kernel, fun h => ?_⟩
  have hroute : entryRoute (submit (.str "  ")) = none := by decide +kernel
  have htarget : cardNavTarget (submitMetadata (.str "  ")) = some "quote" := by decide +kernel
  have hinject : injectCardRoute (.obj []) (submit (.str "  ")) cardNode = .obj [] := by
    have hnode : (namesAdaptiveCard cardNode.componentId ||
        namesAdaptiveCard cardNode.component) = true := by decide +kernel
    rw [injectCardRoute, hnode, hroute]
    rfl
  rw [hinject, htarget] at h
  have hcard := isCardInvocation_withCard (.obj []) "quote"
  rw [show withCard (.obj []) "quote" = .obj [] from h.symm] at hcard
  cases hcard

end Greentic.CardNav
