import GreenticRunner.AgentModel

/-! # Templates

    The input of a node is a template that is rendered against a context: an exact
    `{{path}}` gives the value of the path, other mustaches go to Handlebars, and where
    pointers are allowed a string that starts with `/` may be one.  `provider.invoke`
    renders its maps a SECOND time, after they were rendered with the payload, so what the
    first rendering put there is read as a template again.

    * `providerInput`, `providerOutput` — the maps of `provider.invoke`;
    * `act` — what a node finally acts on, by the place of the template;
    * `inert_iff` — where a substituted string stays inert. -/

namespace Greentic.Templating

open Aw (trim isWhitespace)

/-! ## Pointers -/

/-- `~1` and `~0` in a token of a JSON pointer. -/
def unescape : List Char → List Char
  | '~' :: '1' :: cs => '/' :: unescape cs
  | '~' :: '0' :: cs => '~' :: unescape cs
  | c :: cs => c :: unescape cs
  | [] => []

/-- `str::parse::<usize>` of digits. -/
def parseUsize (cs : List Char) : Option Nat :=
  let n := cs.foldl (fun n c => 10 * n + (c.toNat - 48)) 0
  if cs ≠ [] ∧ cs.all Char.isDigit ∧ n < 2 ^ 64 then some n else none

/-- The array index that a token is. -/
def parseIndex (token : List Char) : Option Nat :=
  if token.head? = some '0' ∧ token.length ≠ 1 then none else parseUsize token

/-- One token of a JSON pointer. -/
def pointerStep (v : Json) (token : List Char) : Option Json :=
  match v with
  | .obj _ => v.get? (String.ofList token)
  | .arr items => (parseIndex token).bind fun i => items[i]?
  | _ => none

/-- `Value::pointer`. -/
def pointer (v : Json) : List Char → Option Json
  | [] => some v
  | '/' :: rest => ((rest.splitOn '/').map unescape).foldlM pointerStep v
  | _ => none

/-- `KNOWN_POINTER_ROOTS`. -/
def knownPointerRoots : List String :=
  ["entry", "in", "prev", "node", "state", "vars", "now", "input", "result", "response"]

/-- `pointer_root_is_known`. -/
def pointerRootIsKnown (raw : List Char) (ctx : Json) : Bool :=
  let first := (raw.dropWhile (· = '/')).takeWhile (· ≠ '/')
  let name := String.ofList (unescape first)
  !first.isEmpty && (knownPointerRoots.contains name || (ctx.get? name).isSome)

/-! ## Paths -/

/-- Whether a text has two braces in a row. -/
def hasMustache (raw : List Char) : Bool := decide (['{', '{'] <:+: raw)

/-- `extract_exact_expression`. -/
def extractExactExpression (raw : List Char) : Option (List Char) :=
  let trimmed := trim raw
  if ['{', '{'] <+: trimmed ∧ ['}', '}'] <:+ trimmed then
    let inner := trim ((trimmed.dropWhile (· = '{')).reverse.dropWhile (· = '}')).reverse
    -- Several mustaches, and blocks, partials and comments, are left to Handlebars.
    let isSigil := inner.head?.any fun c => ['#', '/', '>', '!', '^', '&', '@'].contains c
    if inner ≠ [] ∧ ¬ ['{', '{'] <:+: inner ∧ ¬ ['}', '}'] <:+: inner ∧ ¬ isSigil then some inner
    else none
  else none

/-- `PathSegment`. -/
inductive PathSegment where
  | key (name : String)
  | index (i : Nat)
  deriving DecidableEq

/-- `parse_identifier`, with what is left. -/
def parseIdentifier (cs : List Char) : Option (List Char × List Char) :=
  let stop := fun c => c = '.' || c = '[' || c = ']'
  let ident := trim (cs.takeWhile fun c => !stop c)
  -- Blanks inside make it the call of a helper.
  if ident = [] ∨ ident.any isWhitespace then none else some (ident, cs.dropWhile fun c => !stop c)

/-- `consume_bracket_end`. -/
def consumeBracketEnd : List Char → Option (List Char)
  | [] => none
  | c :: cs => if c = ']' then some cs else if isWhitespace c then consumeBracketEnd cs else none

/-- `parse_bracket_segment`, with what is left. -/
def parseBracketSegment (cs : List Char) : Option (PathSegment × List Char) :=
  match cs with
  | [] => none
  | c :: rest =>
      -- Either quote.
      if c.toNat = 34 ∨ c.toNat = 39 then
        (consumeBracketEnd ((rest.dropWhile (· ≠ c)).drop 1)).map fun left =>
          (.key (String.ofList (rest.takeWhile (· ≠ c))), left)
      else if c.isDigit then
        (consumeBracketEnd (cs.dropWhile Char.isDigit)).bind fun left =>
          (parseUsize (cs.takeWhile Char.isDigit)).map fun i => (.index i, left)
      else
        (parseIdentifier cs).bind fun p =>
          (consumeBracketEnd p.2).map fun left => (.key (String.ofList p.1), left)

/-- The loop of `parse_path_expression`; every round takes a character. -/
def parseSegments : Nat → List Char → Option (List PathSegment)
  | _, [] => some []
  | 0, _ => none
  | n + 1, '.' :: cs => parseSegments n cs
  | n + 1, '[' :: cs =>
      (parseBracketSegment cs).bind fun p => (parseSegments n p.2).map (p.1 :: ·)
  | n + 1, cs =>
      (parseIdentifier cs).bind fun p =>
        (parseSegments n p.2).map (.key (String.ofList p.1) :: ·)

/-- `parse_path_expression`. -/
def parsePathExpression (expr : List Char) : Option (List PathSegment) :=
  match parseSegments (trim expr).length (trim expr) with
  | none => none
  | some [] => none
  | some (.key "this" :: rest) => some rest
  | some segments => some segments

/-- `resolve_path`. -/
def resolvePath (root : Json) (path : List PathSegment) : Option Json :=
  path.foldlM (fun v segment =>
    match segment, v with
    | .key name, .obj _ => v.get? name
    | .index i, .arr items => items[i]?
    | _, _ => none) root

/-! ## Renderings -/

/-- `TemplateOptions`. -/
structure TemplateOptions where
  allowPointer : Bool

/-- How a string is read. -/
inductive Reading where
  | pointer
  | path (segments : List PathSegment)
  | handlebars
  | literal
  deriving DecidableEq

/-- The branches of `render_template_string`, in their order. -/
def readAs (options : TemplateOptions) (raw : String) : Reading :=
  if options.allowPointer ∧ raw.toList.head? = some '/' ∧ hasMustache raw.toList = false then .pointer
  else
    match (extractExactExpression raw.toList).bind parsePathExpression with
    | some segments => .path segments
    | none => if hasMustache raw.toList then .handlebars else .literal

mutual

/-- A value with its strings rendered. -/
def traverse (f : String → Except String Json) : Json → Except String Json
  | .str raw => f raw
  | .arr items => (traverseItems f items).map .arr
  | .obj fields => (traverseFields f fields).map .obj
  | .null => .ok .null
  | .bool b => .ok (.bool b)
  | .num text => .ok (.num text)

def traverseItems (f : String → Except String Json) : List Json → Except String (List Json)
  | [] => .ok []
  | v :: rest => (traverse f v).bind fun v => (traverseItems f rest).map (v :: ·)

def traverseFields (f : String → Except String Json) :
    List (String × Json) → Except String (List (String × Json))
  | [] => .ok []
  | (k, v) :: rest => (traverse f v).bind fun v => (traverseFields f rest).map ((k, v) :: ·)

end

section Render

-- `HANDLEBARS.render_template`.
variable (handlebars : String → Json → Except String String)

/-- `render_template_string`. -/
def renderTemplateString (options : TemplateOptions) (ctx : Json) (raw : String) :
    Except String Json :=
  match readAs options raw with
  | .pointer =>
      match pointer ctx raw.toList with
      | some v => .ok v
      | none =>
          if pointerRootIsKnown raw.toList ctx then
            .error ("template pointer `" ++ raw ++ "` not found in the render context")
          else .ok (.str raw)
  | .path segments => .ok ((resolvePath ctx segments).getD (.str ""))
  | .handlebars =>
      match handlebars raw ctx with
      | .ok text => .ok (.str text)
      | .error e => .error ("template render failed: " ++ e)
  | .literal => .ok (.str raw)

/-- `render_template_value`. -/
def renderTemplateValue (options : TemplateOptions) (ctx template : Json) : Except String Json :=
  traverse (renderTemplateString handlebars options ctx) template

/-- The context of a map of `provider.invoke`. -/
def withInput (base input : Json) : Json :=
  match base with
  | .obj fields => .obj (Json.setField (Json.setField fields "input" input) "result" input)
  | v => v

/-- A field that defaults to null. -/
def fieldOf (payload : Json) (name : String) : Json := (payload.get? name).getD .null

/-- The input that `execute_provider_invoke` gives the provider, of the rendered payload. -/
def providerInput (base payload : Json) : Except String Json :=
  if (fieldOf payload "in_map").isNull then .ok (fieldOf payload "input")
  else
    renderTemplateValue handlebars ⟨true⟩ (withInput base (fieldOf payload "input"))
      (fieldOf payload "in_map")

/-- Its output, of the result of the provider. -/
def providerOutput (base payload result : Json) : Except String Json :=
  if (fieldOf payload "out_map").isNull then .ok result
  else renderTemplateValue handlebars ⟨true⟩ (withInput base result) (fieldOf payload "out_map")

/-- Where a template stands: in the payload of a node (the input of a component, what is emitted,
    the plain input of a provider), in `var.set` or `vars_out`, or in a map of
    `provider.invoke`. -/
inductive Place where
  | payload
  | vars
  | providerMap
  deriving DecidableEq

/-- The contexts of a run: the one of the node, and the one that a provider map is rendered in
    once more. -/
structure Run where
  ctx : Json
  again : Json

/-- What a node acts on in place of a template. -/
def act (place : Place) (run : Run) (template : Json) : Except String Json :=
  match place with
  | .payload => renderTemplateValue handlebars ⟨false⟩ run.ctx template
  | .vars => renderTemplateValue handlebars ⟨true⟩ run.ctx template
  | .providerMap =>
      (renderTemplateValue handlebars ⟨false⟩ run.ctx template).bind
        (renderTemplateValue handlebars ⟨true⟩ run.again)

/-- The same for one string. -/
def actString (place : Place) (run : Run) (raw : String) : Except String Json :=
  act handlebars place run (.str raw)

end Render

/-! ## Traversals -/

variable {f g : String → Except String Json}

mutual

/-- The texts of a value. -/
def texts : Json → List String
  | .str raw => [raw]
  | .arr items => textsItems items
  | .obj fields => textsFields fields
  | .null => []
  | .bool _ => []
  | .num _ => []

def textsItems : List Json → List String
  | [] => []
  | v :: rest => texts v ++ textsItems rest

def textsFields : List (String × Json) → List String
  | [] => []
  | (_, v) :: rest => texts v ++ textsFields rest

end

mutual

/-- A traversal depends on what it does to the texts that are there. -/
theorem traverse_congr : ∀ (t : Json), (∀ r ∈ texts t, f r = g r) → traverse f t = traverse g t
  | .str raw, h => h raw (List.mem_singleton.mpr rfl)
  | .arr items, h => by rw [traverse, traverse, traverseItems_congr items h]
  | .obj fields, h => by rw [traverse, traverse, traverseFields_congr fields h]
  | .null, _ => rfl
  | .bool _, _ => rfl
  | .num _, _ => rfl

theorem traverseItems_congr : ∀ (items : List Json), (∀ r ∈ textsItems items, f r = g r) →
    traverseItems f items = traverseItems g items
  | [], _ => rfl
  | v :: rest, h => by
      rw [traverseItems, traverseItems, traverse_congr v fun r hr => h r (List.mem_append_left _ hr),
        traverseItems_congr rest fun r hr => h r (List.mem_append_right _ hr)]

/-- The same for fields. -/
theorem traverseFields_congr : ∀ (fields : List (String × Json)),
    (∀ r ∈ textsFields fields, f r = g r) → traverseFields f fields = traverseFields g fields
  | [], _ => rfl
  | (k, v) :: rest, h => by
      rw [traverseFields, traverseFields,
        traverse_congr v fun r hr => h r (List.mem_append_left _ hr),
        traverseFields_congr rest fun r hr => h r (List.mem_append_right _ hr)]

end

/-- A bind that succeeds. -/
theorem bind_ok {α β : Type} {x : Except String α} {k : α → Except String β} {b : β} :
    x.bind k = .ok b ↔ ∃ a, x = .ok a ∧ k a = .ok b := by
  cases x with
  | error e =>
      constructor
      · exact fun h => nomatch h
      · rintro ⟨a, h, _⟩
        exact nomatch h
  | ok a =>
      constructor
      · exact fun h => ⟨a, rfl, h⟩
      · rintro ⟨a', h, hk⟩
        cases h
        exact hk

/-- A mapped result is the image of a result. -/
theorem map_ok {α β : Type} {x : Except String α} {k : α → β} {b : β} :
    x.map k = .ok b ↔ ∃ a, x = .ok a ∧ k a = b := by
  cases x with
  | error e =>
      constructor
      · exact fun h => nomatch h
      · rintro ⟨a, h, _⟩
        exact nomatch h
  | ok a =>
      constructor
      · exact fun h => ⟨a, rfl, Except.ok.inj h⟩
      · rintro ⟨a', h, hk⟩
        cases h
        exact congrArg Except.ok hk

mutual

/-- Two traversals in a row succeed as one does. -/
theorem traverse_fuse : ∀ (t v : Json), (traverse f t).bind (traverse g) = .ok v ↔
    traverse (fun r => (f r).bind (traverse g)) t = .ok v
  | .str _, _ => Iff.rfl
  | .arr items, v => by
      rw [traverse, traverse, bind_ok, map_ok]
      constructor
      · rintro ⟨_, hf, hg⟩
        obtain ⟨items', hitems, rfl⟩ := map_ok.mp hf
        rw [traverse, map_ok] at hg
        obtain ⟨out, hout, rfl⟩ := hg
        exact ⟨out, (traverseItems_fuse items out).mp (bind_ok.mpr ⟨items', hitems, hout⟩), rfl⟩
      · rintro ⟨out, hout, rfl⟩
        obtain ⟨items', hitems, hg⟩ := bind_ok.mp ((traverseItems_fuse items out).mpr hout)
        refine ⟨.arr items', map_ok.mpr ⟨items', hitems, rfl⟩, ?_⟩
        rw [traverse, hg]
        rfl
  | .obj fields, v => by
      rw [traverse, traverse, bind_ok, map_ok]
      constructor
      · rintro ⟨_, hf, hg⟩
        obtain ⟨fields', hfields, rfl⟩ := map_ok.mp hf
        rw [traverse, map_ok] at hg
        obtain ⟨out, hout, rfl⟩ := hg
        exact ⟨out, (traverseFields_fuse fields out).mp (bind_ok.mpr ⟨fields', hfields, hout⟩), rfl⟩
      · rintro ⟨out, hout, rfl⟩
        obtain ⟨fields', hfields, hg⟩ := bind_ok.mp ((traverseFields_fuse fields out).mpr hout)
        refine ⟨.obj fields', map_ok.mpr ⟨fields', hfields, rfl⟩, ?_⟩
        rw [traverse, hg]
        rfl
  | .null, _ => Iff.rfl
  | .bool _, _ => Iff.rfl
  | .num _, _ => Iff.rfl

/-- Two passes over the items are one pass. -/
theorem traverseItems_fuse : ∀ (items out : List Json),
    (traverseItems f items).bind (traverseItems g) = .ok out ↔
      traverseItems (fun r => (f r).bind (traverse g)) items = .ok out
  | [], _ => Iff.rfl
  | v :: rest, out => by
      rw [traverseItems, traverseItems, bind_ok, bind_ok]
      constructor
      · rintro ⟨_, hf, hg⟩
        obtain ⟨v', hv, hrest⟩ := bind_ok.mp hf
        obtain ⟨rest', hr, rfl⟩ := map_ok.mp hrest
        rw [traverseItems, bind_ok] at hg
        obtain ⟨w, hw, hgrest⟩ := hg
        obtain ⟨wrest, hwr, rfl⟩ := map_ok.mp hgrest
        refine ⟨w, (traverse_fuse v w).mp (bind_ok.mpr ⟨v', hv, hw⟩), map_ok.mpr ⟨wrest, ?_, rfl⟩⟩
        exact (traverseItems_fuse rest wrest).mp (bind_ok.mpr ⟨rest', hr, hwr⟩)
      · rintro ⟨w, hw, hrest⟩
        obtain ⟨wrest, hwr, rfl⟩ := map_ok.mp hrest
        obtain ⟨v', hv, hvw⟩ := bind_ok.mp ((traverse_fuse v w).mpr hw)
        obtain ⟨rest', hr, hrw⟩ := bind_ok.mp ((traverseItems_fuse rest wrest).mpr hwr)
        refine ⟨v' :: rest', bind_ok.mpr ⟨v', hv, map_ok.mpr ⟨rest', hr, rfl⟩⟩, ?_⟩
        rw [traverseItems, hvw, hrw]
        rfl

/-- The same for fields. -/
theorem traverseFields_fuse : ∀ (fields out : List (String × Json)),
    (traverseFields f fields).bind (traverseFields g) = .ok out ↔
      traverseFields (fun r => (f r).bind (traverse g)) fields = .ok out
  | [], _ => Iff.rfl
  | (k, v) :: rest, out => by
      rw [traverseFields, traverseFields, bind_ok, bind_ok]
      constructor
      · rintro ⟨_, hf, hg⟩
        obtain ⟨v', hv, hrest⟩ := bind_ok.mp hf
        obtain ⟨rest', hr, rfl⟩ := map_ok.mp hrest
        rw [traverseFields, bind_ok] at hg
        obtain ⟨w, hw, hgrest⟩ := hg
        obtain ⟨wrest, hwr, rfl⟩ := map_ok.mp hgrest
        refine ⟨w, (traverse_fuse v w).mp (bind_ok.mpr ⟨v', hv, hw⟩), map_ok.mpr ⟨wrest, ?_, rfl⟩⟩
        exact (traverseFields_fuse rest wrest).mp (bind_ok.mpr ⟨rest', hr, hwr⟩)
      · rintro ⟨w, hw, hrest⟩
        obtain ⟨wrest, hwr, rfl⟩ := map_ok.mp hrest
        obtain ⟨v', hv, hvw⟩ := bind_ok.mp ((traverse_fuse v w).mpr hw)
        obtain ⟨rest', hr, hrw⟩ := bind_ok.mp ((traverseFields_fuse rest wrest).mpr hwr)
        refine ⟨(k, v') :: rest', bind_ok.mpr ⟨v', hv, map_ok.mpr ⟨rest', hr, rfl⟩⟩, ?_⟩
        rw [traverseFields, hvw, hrw]
        rfl

end

/-- A field is found under its name, rendered. -/
theorem traverseFields_find {fields out : List (String × Json)} {name : String} {t : Json}
    (h : traverseFields f fields = .ok out) (ht : (Json.obj fields).get? name = some t) :
    ∃ v, traverse f t = .ok v ∧ (Json.obj out).get? name = some v := by
  induction fields generalizing out with
  | nil => exact nomatch ht
  | cons p rest ih =>
      obtain ⟨k, w⟩ := p
      rw [traverseFields, bind_ok] at h
      obtain ⟨w', hw, hrest⟩ := h
      obtain ⟨rest', hr, rfl⟩ := map_ok.mp hrest
      by_cases hk : k = name
      · subst hk
        simp only [Json.get?, BEq.rfl, List.find?_cons_of_pos, Option.map_some,
          Option.some.injEq] at ht ⊢
        exact ⟨w', ht ▸ hw, rfl⟩
      · rw [Json.get?, List.find?_cons_of_neg (by simpa using hk)] at ht
        obtain ⟨v, hv, hget⟩ := ih hr ht
        refine ⟨v, hv, ?_⟩
        rw [Json.get?, List.find?_cons_of_neg (by simpa using hk)]
        exact hget

/-- An item is found at its place, rendered. -/
theorem traverseItems_getElem {items out : List Json} {i : Nat} {t : Json}
    (h : traverseItems f items = .ok out) (ht : items[i]? = some t) :
    ∃ v, traverse f t = .ok v ∧ out[i]? = some v := by
  induction items generalizing out i with
  | nil => exact nomatch ht
  | cons w rest ih =>
      rw [traverseItems, bind_ok] at h
      obtain ⟨w', hw, hrest⟩ := h
      obtain ⟨rest', hr, rfl⟩ := map_ok.mp hrest
      cases i with
      | zero =>
          cases ht
          exact ⟨w', hw, rfl⟩
      | succ i =>
          rw [List.getElem?_cons_succ] at ht
          obtain ⟨v, hv, hget⟩ := ih hr ht
          refine ⟨v, hv, ?_⟩
          rw [List.getElem?_cons_succ]
          exact hget

/-- A traversal works place by place. -/
theorem traverse_resolve {path : List PathSegment} {t u v : Json} (h : traverse f t = .ok v)
    (hu : resolvePath t path = some u) : ∃ w, traverse f u = .ok w ∧ resolvePath v path = some w := by
  induction path generalizing t v with
  | nil =>
      cases hu
      exact ⟨v, h, rfl⟩
  | cons segment path ih =>
      rw [resolvePath, List.foldlM_cons] at hu
      obtain ⟨t', ht', hrest⟩ := Option.bind_eq_some_iff.mp hu
      have hnext : ∃ v', traverse f t' = .ok v' ∧ resolvePath v (segment :: path)
          = resolvePath v' path := by
        cases segment with
        | key name =>
            cases t with
            | obj fields =>
                rw [traverse] at h
                obtain ⟨out, hout, rfl⟩ := map_ok.mp h
                obtain ⟨v', hv', hget⟩ := traverseFields_find hout ht'
                refine ⟨v', hv', ?_⟩
                rw [resolvePath, List.foldlM_cons]
                show Option.bind ((Json.obj out).get? name) _ = _
                rw [hget]
                rfl
            | arr items => exact nomatch ht'
            | str raw => exact nomatch ht'
            | null => exact nomatch ht'
            | bool b => exact nomatch ht'
            | num text => exact nomatch ht'
        | index i =>
            cases t with
            | arr items =>
                rw [traverse] at h
                obtain ⟨out, hout, rfl⟩ := map_ok.mp h
                obtain ⟨v', hv', hget⟩ := traverseItems_getElem hout ht'
                refine ⟨v', hv', ?_⟩
                rw [resolvePath, List.foldlM_cons]
                show Option.bind (out[i]?) _ = _
                rw [hget]
                rfl
            | obj fields => exact nomatch ht'
            | str raw => exact nomatch ht'
            | null => exact nomatch ht'
            | bool b => exact nomatch ht'
            | num text => exact nomatch ht'
      obtain ⟨v', hv', hv⟩ := hnext
      rw [hv]
      exact ih hv' hrest

/-! ## Substituted strings -/

theorem trim_contained (s : List Char) : trim s <:+: s := by
  have hback : trim s <+: s.dropWhile isWhitespace := by
    rw [trim, ← List.reverse_suffix, List.reverse_reverse]
    exact List.dropWhile_suffix isWhitespace
  exact hback.isInfix.trans (List.dropWhile_suffix isWhitespace).isInfix

/-- An exact expression has its braces. -/
theorem hasMustache_of_exact {raw inner : List Char} (h : extractExactExpression raw = some inner) :
    hasMustache raw = true := by
  unfold extractExactExpression at h
  simp only at h
  split at h
  next hbraces => exact decide_eq_true (hbraces.1.isInfix.trans (trim_contained raw))
  next => exact nomatch h

/-- What is read as a literal, where pointers are allowed. -/
theorem readAs_literal {s : String} :
    readAs ⟨true⟩ s = .literal ↔ hasMustache s.toList = false ∧ s.toList.head? ≠ some '/' := by
  unfold readAs
  cases hm : hasMustache s.toList with
  | true =>
      rw [if_neg (fun h => Bool.noConfusion h.2.2)]
      constructor
      · intro h
        split at h
        next => exact nomatch h
        next => exact nomatch h
      · exact fun h => nomatch h.1
  | false =>
      by_cases hslash : s.toList.head? = some '/'
      · rw [if_pos ⟨rfl, hslash, rfl⟩]
        exact ⟨(fun h => nomatch h), fun h => absurd hslash h.2⟩
      · have hexact : extractExactExpression s.toList = none := by
          by_contra hne
          obtain ⟨inner, hinner⟩ := Option.ne_none_iff_exists'.mp hne
          rw [hasMustache_of_exact hinner] at hm
          exact nomatch hm
        rw [if_neg (fun h => hslash h.2.1), hexact]
        exact ⟨fun _ => ⟨rfl, hslash⟩, fun _ => rfl⟩

/-- An exact expression that gives a string. -/
def Exact (ctx : Json) (raw s : String) : Prop :=
  ∃ segments, (extractExactExpression raw.toList).bind parsePathExpression = some segments ∧
    resolvePath ctx segments = some (.str s)

variable {handlebars : String → Json → Except String String}

/-- An exact expression is rendered to its string, whatever the options. -/
theorem Exact.render {ctx : Json} {raw s : String} (h : Exact ctx raw s)
    (options : TemplateOptions) :
    renderTemplateString handlebars options ctx raw = .ok (.str s) := by
  obtain ⟨segments, hexpr, hresolve⟩ := h
  obtain ⟨inner, hinner, _⟩ := Option.bind_eq_some_iff.mp hexpr
  have hread : readAs options raw = .path segments := by
    unfold readAs
    rw [if_neg (by rw [hasMustache_of_exact hinner]; exact fun h => Bool.noConfusion h.2.2), hexpr]
  rw [renderTemplateString, hread]
  show Except.ok ((resolvePath ctx segments).getD (.str "")) = _
  rw [hresolve]
  rfl

/-- The options of the rendering that reads a substituted string again. -/
def rereads : Place → Option TemplateOptions
  | .payload => none
  | .vars => none
  | .providerMap => some ⟨true⟩

/-- In every mapping, the string stands where the expression stood, and it is not read. -/
structure Verbatim (handlebars : String → Json → Except String String) (place : Place)
    (raw : String) (run : Run) (s : String) : Prop where
  kept : ∀ template path v, resolvePath template path = some (.str raw) →
    act handlebars place run template = .ok v → resolvePath v path = some (.str s)
  unread : ∀ options, rereads place = some options → readAs options s = .literal

/-- In every mapping whose other texts are rendered alike in two runs, the runs differ in the
    places of the expression only: both give one mapping, filled with their strings. -/
def DiffersOnlyAt (handlebars : String → Json → Except String String) (place : Place)
    (raw : String) (run run' : Run) (s s' : String) : Prop :=
  ∀ template, (∀ r ∈ texts template, r ≠ raw →
      actString handlebars place run r = actString handlebars place run' r) →
    ∃ others : String → Except String Json, ∀ v,
      (act handlebars place run template = .ok v ↔
        traverse (Function.update others raw (.ok (.str s))) template = .ok v) ∧
      (act handlebars place run' template = .ok v ↔
        traverse (Function.update others raw (.ok (.str s'))) template = .ok v)

/-- Substituted values are inert, in two runs. -/
structure Inert (handlebars : String → Json → Except String String) (place : Place)
    (raw : String) (run run' : Run) (s s' : String) : Prop where
  first : Verbatim handlebars place raw run s
  second : Verbatim handlebars place raw run' s'
  alone : DiffersOnlyAt handlebars place raw run run' s s'

/-- The place is rendered once, or the string has neither two braces in a row nor a slash in
    front. -/
def Spared (place : Place) (s : String) : Prop :=
  place ≠ .providerMap ∨ (hasMustache s.toList = false ∧ s.toList.head? ≠ some '/')

variable {place : Place} {run run' : Run} {raw s s' : String}

theorem act_texts (template v : Json) : act handlebars place run template = .ok v ↔
    traverse (actString handlebars place run) template = .ok v := by
  cases place with
  | payload => exact Iff.rfl
  | vars => exact Iff.rfl
  | providerMap => exact traverse_fuse template v

/-- A text that is spared is passed on as it is. -/
theorem Spared.actString (hs : Spared place s) (h : Exact run.ctx raw s) :
    actString handlebars place run raw = .ok (.str s) := by
  cases place with
  | payload => exact h.render ⟨false⟩
  | vars => exact h.render ⟨true⟩
  | providerMap =>
      have hplain := hs.resolve_left fun hne => hne rfl
      show (renderTemplateString handlebars ⟨false⟩ run.ctx raw).bind _ = _
      rw [h.render ⟨false⟩]
      show renderTemplateString handlebars ⟨true⟩ run.again s = _
      rw [renderTemplateString, readAs_literal.mpr hplain]

/-- So it is kept verbatim. -/
theorem Spared.verbatim (hs : Spared place s) (h : Exact run.ctx raw s) :
    Verbatim handlebars place raw run s where
  kept := by
    intro template path v hraw hact
    obtain ⟨w, hw, hv⟩ := traverse_resolve ((act_texts template v).mp hact) hraw
    rw [traverse, hs.actString h] at hw
    rw [hv, ← Except.ok.inj hw]
  unread := by
    intro options hoptions
    cases place with
    | payload => exact nomatch hoptions
    | vars => exact nomatch hoptions
    | providerMap =>
        cases hoptions
        exact readAs_literal.mpr (hs.resolve_left fun hne => hne rfl)

theorem Verbatim.spared (h : Verbatim handlebars place raw run s) : Spared place s := by
  cases place with
  | payload => exact .inl fun h => nomatch h
  | vars => exact .inl fun h => nomatch h
  | providerMap => exact .inr (readAs_literal.mp (h.unread ⟨true⟩ rfl))

/-- Two runs on spared texts differ at these texts only. -/
theorem Spared.differsOnlyAt (hs : Spared place s) (hs' : Spared place s')
    (h : Exact run.ctx raw s) (h' : Exact run'.ctx raw s') :
    DiffersOnlyAt handlebars place raw run run' s s' := by
  intro template hothers
  refine ⟨Templating.actString handlebars place run, fun v => ⟨?_, ?_⟩⟩
  · rw [act_texts, ← hs.actString h, Function.update_eq_self]
  · rw [act_texts]
    refine Eq.congr_left (traverse_congr template fun r hr => ?_)
    by_cases heq : r = raw
    · rw [heq, Function.update_self, hs'.actString h']
    · rw [Function.update_of_ne heq, hothers r hr heq]

/-- **WHERE SUBSTITUTED STRINGS ARE INERT**: an exact expression leaves its string
    verbatim and unread, and two runs that differ in the string differ at its places only, exactly
    when the place is rendered once, or the strings have neither two braces in a row nor a slash
    in front. -/
theorem inert_iff (handlebars : String → Json → Except String String) (place : Place)
    {run run' : Run} {raw s s' : String} (h : Exact run.ctx raw s) (h' : Exact run'.ctx raw s') :
    Inert handlebars place raw run run' s s' ↔ Spared place s ∧ Spared place s' := by
  constructor
  · exact fun hi => ⟨hi.first.spared, hi.second.spared⟩
  · exact fun ⟨hs, hs'⟩ => ⟨hs.verbatim h, hs'.verbatim h', hs.differsOnlyAt hs' h h'⟩

/-! ## Provider maps -/

/-- A context with a text that was typed, and a variable. -/
def typed (text : String) : Json :=
  .obj [("entry", .obj [("text", .str text)]), ("vars", .obj [("token", .str "secret")])]

/-- The expression for the text. -/
def typedText : String := "\x7b\x7bentry.text\x7d\x7d"

/-- No template of these examples needs Handlebars. -/
def noHandlebars : String → Json → Except String String := fun _ _ => .error "no helper"

theorem typed_exact (text : String) : Exact (typed text) typedText text :=
  ⟨[.key "entry", .key "text"], by decide +kernel, rfl⟩

/-- Two greetings are inert. -/
theorem inert_iff_greeting :
    Inert noHandlebars .providerMap typedText ⟨typed "hello", typed "hello"⟩
      ⟨typed "bye", typed "bye"⟩ "hello" "bye" := by
  refine (inert_iff noHandlebars .providerMap (typed_exact "hello") (typed_exact "bye")).mpr
    ⟨.inr ⟨?_, ?_⟩, .inr ⟨?_, ?_⟩⟩
  · decide +kernel
  · decide +kernel
  · decide +kernel
  · decide +kernel

/-- A user who types a pointer is given what it points to. -/
theorem typedPointer_resolved :
    Exact (typed "/vars/token") typedText "/vars/token" ∧
      ∃ payload, renderTemplateValue noHandlebars ⟨false⟩ (typed "/vars/token")
          (.obj [("in_map", .obj [("text", .str typedText)]), ("op", .str "send")]) = .ok payload ∧
        providerInput noHandlebars (typed "/vars/token") payload
          = .ok (.obj [("text", .str "secret")]) := by
  have hexact := typed_exact "/vars/token"
  have hread : readAs ⟨false⟩ "send" = .literal := by decide +kernel
  have hagain : readAs ⟨true⟩ "/vars/token" = .pointer := by decide +kernel
  have hpoints : (pointer (withInput (typed "/vars/token") .null) "/vars/token".toList).bind
      Json.asStr? = some "secret" := by decide +kernel
  obtain ⟨v, hv, hstr⟩ := Option.bind_eq_some_iff.mp hpoints
  have htext : renderTemplateString noHandlebars ⟨false⟩ (typed "/vars/token") typedText
      = .ok (.str "/vars/token") := hexact.render ⟨false⟩
  have hsend : renderTemplateString noHandlebars ⟨false⟩ (typed "/vars/token") "send"
      = .ok (.str "send") := by rw [renderTemplateString, hread]
  have hsecret : renderTemplateString noHandlebars ⟨true⟩ (withInput (typed "/vars/token") .null)
      "/vars/token" = .ok (.str "secret") := by
    rw [renderTemplateString, hagain]
    simp only [hv, Json.eq_str_of_asStr? hstr]
  refine ⟨hexact, .obj [("in_map", .obj [("text", .str "/vars/token")]), ("op", .str "send")], ?_, ?_⟩
  · simp only [renderTemplateValue, traverse, traverseFields, htext, hsend, Except.bind, Except.map]
  · have hmap : fieldOf (.obj [("in_map", .obj [("text", .str "/vars/token")]), ("op", .str "send")])
        "in_map" = .obj [("text", .str "/vars/token")] := by simp [fieldOf, Json.get?]
    have hinput : fieldOf (.obj [("in_map", .obj [("text", .str "/vars/token")]),
        ("op", .str "send")]) "input" = .null := by simp [fieldOf, Json.get?]
    rw [providerInput, hmap, hinput, if_neg (by simp [Json.isNull])]
    simp only [renderTemplateValue, traverse, traverseFields, hsecret, Except.bind, Except.map]

end Greentic.Templating
