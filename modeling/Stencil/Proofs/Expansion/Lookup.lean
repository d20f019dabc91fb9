import Stencil.Proofs.Expansion.Nesting
import Stencil.Proofs.Expansion.Placeholder
import Stencil.Proofs.Markup.RoundTrip

/-!
# Paths of placeholders

A placeholder is found in the markup of the tree, so the path that is looked up is the path as it is
written there: escaped as a text if it stands in a text, and as the value of an attribute if it stands
in an attribute (`gives_expand_placeholder`). A path that its place does not escape is looked up as it
is, and a value whose text is inert comes in as it is (`expand_placeholder`). A key with a character
that is escaped is not found (`raises_expand_placeholder`).

* `expandNodes_of_lacks`: nodes without directives are left to the last pass;
* `cutComment?_between`: no comment begins or ends around a text with braces at its ends.
-/

namespace Stencil

/-! ### Comments around a text -/

/-- A comment behind a character of no mark is found there if none begins before it. -/
theorem cutComment?_cons_of_cut {d : Char} (ho : d ∉ commentOpener) {a : List Char}
    (ha : Text.cut commentOpener a = none) (s : List Char) :
    cutComment? (a ++ d :: s) = (cutComment? s).map fun t => a ++ d :: t := by
  rw [cutComment?, cutComment?, Text.cut_append_cons (by decide) ho, ha]
  cases Text.cut commentOpener s with
  | none => rfl
  | some found =>
    obtain ⟨before, after⟩ := found
    simp only [Option.map_some, Option.bind_some]
    cases Text.cut commentCloser (commentOpener ++ after) with
    | none => rfl
    | some closed => simp

/-- A comment before a character of no mark is found there if none begins or ends behind it. -/
theorem cutComment?_append_cons {d : Char} (ho : d ∉ commentOpener) (hc : d ∉ commentCloser)
    {s : List Char} (hs : Text.cut commentOpener s = none) (hs' : Text.cut commentCloser s = none)
    (a : List Char) : cutComment? (a ++ d :: s) = (cutComment? a).map fun t => t ++ d :: s := by
  rw [cutComment?, cutComment?, Text.cut_append_cons (by decide) ho, hs]
  cases Text.cut commentOpener a with
  | none => rfl
  | some found =>
    obtain ⟨before, after⟩ := found
    simp only [Option.bind_some]
    rw [← List.append_assoc, Text.cut_append_cons (by decide) hc, hs']
    cases Text.cut commentCloser (commentOpener ++ after) with
    | none => rfl
    | some closed => simp

namespace Expansion

open Node Markup

/-! ### Nodes without directives -/

theorem expandBranches_of_lacks {host : Host} {expand : Expand} {context : Context} {ns : List Node}
    (h : Everywhere (fun n _ => n.Lacks [Directive.ifTag, Directive.elseTag]) ns) :
    expandBranches host expand context ns .nothing = pure ns := by
  induction ns using forest_induction with
  | nil => rfl
  | text data raw ns ih =>
    have hnode : branchNode host expand context (.text data raw) .nothing =
        pure ([.text data raw], .nothing) := by
      rw [branchNode]
      split_ifs <;> rfl
    rw [expandBranches_cons, hnode, pure_bind, ih h.2.2, released_nothing]
    rfl
  | comment data ns ih =>
    rw [expandBranches_cons, branchNode, pure_bind, ih h.2.2, released_nothing]
    rfl
  | fragment children ns ihc ih =>
    rw [expandBranches_cons, branchNode, ihc h.2.1, pure_bind, pure_bind, ih h.2.2, released_nothing]
    rfl
  | element tag attrs children void ns ihc ih =>
    have htag := h.1
    simp only [Lacks, List.mem_cons, List.not_mem_nil, or_false, not_or] at htag
    rw [expandBranches_cons, branchNode, if_neg htag.1, if_neg htag.2, ihc h.2.1, pure_bind, pure_bind,
      ih h.2.2, released_nothing]
    rfl

/-- Nodes without directives and comments are left to the last pass. -/
theorem expandNodes_of_lacks (s : Surroundings) (depth : Nat) (inserting : List String)
    (context : Context) {ns : List Node} (h : Everywhere (fun n _ => n.Lacks Directive.tags) ns)
    (hcomment : cutComment? (writeAll ns) = none) :
    expandNodes s (depth + 1) inserting context ns =
      interpolate s.host (.map context) s.limits.replacements (writeAll ns) >>= fun text =>
        Evaluation.ofMarkup (parse (String.ofList text)) := by
  have hlacks : ∀ {tags : List String}, tags ⊆ Directive.tags →
      Everywhere (fun n _ => n.Lacks tags) ns := fun htags => h.imp fun _ _ hn => hn.mono htags
  rw [expandNodes_succ, expandRepeats_of_lacks (hlacks (by decide)), pure_bind,
    expandBranches_of_lacks (hlacks (by decide)), pure_bind, finishNodes,
    expandInserts_of_lacks (hlacks (by decide)), pure_bind, stripComments_of_cutComment hcomment]

/-! ### One placeholder -/

/-- A path without blanks around it is what is looked up. -/
theorem resolve_trim (host : Host) (path : List Char) (data : Value) :
    Path.resolve host (Text.trim path) data = Path.resolve host path data := by
  cases data with
  | map context => rw [Path.resolve, Path.resolve, Text.trim_trim]
  | _ => rfl

theorem gives_renderPlaceholder {host : Host} {data v : Value} {path : List Char} {t : String}
    (hv : (Path.resolve host path data).Gives v) (ht : v.render = .ok t) :
    (renderPlaceholder host data path).Gives t.toList := by
  rw [renderPlaceholder, resolve_trim, Evaluation.gives_bind]
  exact ⟨v, hv, by rw [ht]; rfl⟩

/-- A placeholder between texts in which none begins is replaced, and no other one is left. -/
theorem gives_interpolate_placeholder {host : Host} {data : Value} (fuel : Nat)
    {before path after text : List Char} (hbefore : Unopened before) (hpath : Unclosed path)
    (hafter : Unopened after) (htext : (renderPlaceholder host data path).Gives text)
    (hinert : Inert text) :
    (interpolate host data (fuel + 1)
        (before ++ ('\x7b' :: '\x7b' :: (path ++ '\x7d' :: '\x7d' :: after)))).Gives
      (before ++ text ++ after) := by
  have hnone := placeholder?_of_unopened ((hbefore.append hinert.unopened).append hafter)
  rw [interpolate, placeholder?_append hbefore hpath]
  refine Evaluation.gives_bind.2 ⟨text, htext, ?_⟩
  rw [interpolate_of_no_placeholder host data fuel hnone]
  exact Evaluation.gives_pure.2 rfl

/-- Nodes whose markup has one placeholder expand to the nodes whose markup has the text of its value
    in the place of it. -/
theorem gives_expand_placeholder {s : Surroundings} {context : Context} {ns ms : List Node}
    {before path after : List Char} {t : String} {v : Value} (hdepth : 0 < s.limits.depth)
    (hfuel : 0 < s.limits.replacements) (hlacks : Everywhere (fun n _ => n.Lacks Directive.tags) ns)
    (hcomment : cutComment? (writeAll ns) = none)
    (hwrite : writeAll ns = before ++ ('\x7b' :: '\x7b' :: (path ++ '\x7d' :: '\x7d' :: after)))
    (hbefore : Unopened before) (hpath : Unclosed path) (hafter : Unopened after)
    (hv : (Path.resolve s.host path (.map context)).Gives v) (ht : v.render = .ok t)
    (hinert : Inert t.toList) (hms : writeAll ms = before ++ t.toList ++ after)
    (hcanonical : CanonicalAll StandsAlone ms) :
    (expand s (.tree (.fragment ns)) (.map context)).Gives ms := by
  obtain ⟨depth, hdepth⟩ := Nat.exists_eq_add_of_lt hdepth
  obtain ⟨fuel, hfuel⟩ := Nat.exists_eq_add_of_lt hfuel
  have htext := gives_interpolate_placeholder fuel hbefore hpath hafter
    (gives_renderPlaceholder hv ht) hinert
  have hexpand : expand s (.tree (.fragment ns)) (.map context) =
      expandNodes s (depth + 1) [] context ns := by
    rw [expand, treeOf, pure_bind, hdepth, Nat.zero_add]
    rfl
  rw [hexpand, expandNodes_of_lacks s depth [] context hlacks hcomment, hwrite, hfuel, Nat.zero_add,
    Evaluation.gives_bind]
  refine ⟨_, htext, ?_⟩
  rw [← hms, parse_spelled (spellsAll_writeAll ms) hcanonical]
  rfl

/-! ### A placeholder in a text and in an attribute -/

/-- The placeholder of a path. -/
def placeholderFor (path : String) : String := "\x7b\x7b" ++ path ++ "\x7d\x7d"

/-- A link with a title. -/
def titled (title : String) : Node := .element "a" (.ofList [("title", title)]) [] false

theorem toList_placeholderFor (path : String) :
    (placeholderFor path).toList =
      [] ++ ('\x7b' :: '\x7b' :: (path.toList ++ '\x7d' :: '\x7d' :: [])) := by
  simp [placeholderFor]

theorem writeAll_text (data : String) : writeAll [.text data false] = escape data.toList := by
  rw [writeAll, write, writeAll, List.append_nil]
  rfl

theorem writeAll_titled {title : String} (h : title ≠ "") :
    writeAll [titled title] = ['<', 'a', ' ', 't', 'i', 't', 'l', 'e', '=', '"'] ++
      (escapeAttr title.toList ++ ['"', '>', '<', '/', 'a', '>']) := by
  have hentries : (OrderedMap.ofList [("title", title)]).entries = [("title", title)] := rfl
  obtain ⟨c, cs, hcs⟩ := List.exists_cons_of_ne_nil fun hnil => h (String.toList_inj.1 hnil)
  rw [titled, writeAll, write, writeAll, if_neg (by decide), writeTag, writeAttrs, hentries]
  simp [writeAttr, hcs]

section

variable {s : Surroundings} {context : Context} {path t : String} {v : Value}
  (hdepth : 0 < s.limits.depth) (hfuel : 0 < s.limits.replacements) (hpath : '\x7d' ∉ path.toList)
  (ht : v.render = .ok t) (hne : t ≠ "") (hinert : Inert t.toList)

include hdepth hfuel hpath ht hne hinert

/-- In a text the escaped path is looked up. -/
theorem gives_expand_text (hv : (Path.resolve s.host (escape path.toList) (.map context)).Gives v) :
    (expand s (.tree (.fragment [.text (placeholderFor path) false])) (.map context)).Gives
      [.text t false] := by
  have hwrite : writeAll [.text (placeholderFor path) false] =
      [] ++ ('\x7b' :: '\x7b' :: (escape path.toList ++ '\x7d' :: '\x7d' :: [])) := by
    rw [writeAll_text, escape, toList_placeholderFor, flatMap_placeholder escapes_escapeChar]
    rfl
  have hcomment : cutComment? (writeAll [.text (placeholderFor path) false]) = none := by
    rw [writeAll_text, cutComment?, commentOpener,
      Text.cut_eq_none_of_not_mem (lt_not_mem_escape (placeholderFor path).toList)]
    rfl
  refine gives_expand_placeholder hdepth hfuel ⟨trivial, trivial, trivial⟩ hcomment hwrite
    trivial ?_ trivial hv ht hinert ?_ ⟨by simpa [Canonical] using hne, by simp, trivial⟩
  · exact Unclosed.flatMap escapes_escapeChar (Text.isolated_of_not_mem hpath)
  · rw [writeAll_text, escape, flatMap_of_inert escapes_escapeChar hinert]
    simp

/-- In an attribute the path is looked up that is escaped as a value, if no comment is in it. -/
theorem gives_expand_titled (hcomment : cutComment? (escapeAttr path.toList) = none)
    (hv : (Path.resolve s.host (escapeAttr path.toList) (.map context)).Gives v) :
    (expand s (.tree (.fragment [titled (placeholderFor path)])) (.map context)).Gives [titled t] := by
  have hne' : placeholderFor path ≠ "" := by
    intro h
    have := toList_placeholderFor path
    rw [h] at this
    cases this
  have hwrite : writeAll [titled (placeholderFor path)] =
      ['<', 'a', ' ', 't', 'i', 't', 'l', 'e', '=', '"'] ++ ('\x7b' :: '\x7b' ::
        (escapeAttr path.toList ++ '\x7d' :: '\x7d' :: ['"', '>', '<', '/', 'a', '>'])) := by
    rw [writeAll_titled hne', escapeAttr, toList_placeholderFor,
      flatMap_placeholder escapes_escapeAttrChar]
    simp [escapeAttr]
  have hcomment : cutComment? (writeAll [titled (placeholderFor path)]) = none := by
    have hsplit := cutComment?_cons_of_cut (d := '\x7b') (by decide)
      (a := ['<', 'a', ' ', 't', 'i', 't', 'l', 'e', '=', '"', '\x7b']) rfl
    rw [hwrite]
    refine (hsplit _).trans ?_
    rw [cutComment?_append_cons (by decide) (by decide) rfl rfl, hcomment]
    rfl
  have hlacks : "a" ∉ Directive.tags := by decide
  refine gives_expand_placeholder hdepth hfuel ⟨hlacks, trivial, trivial⟩ hcomment hwrite
    (by decide) ?_ (by decide) hv ht hinert ?_ ?_
  · exact Unclosed.flatMap escapes_escapeAttrChar (Text.isolated_of_not_mem hpath)
  · rw [writeAll_titled hne, escapeAttr, flatMap_of_inert escapes_escapeAttrChar hinert]
    simp
  · refine ⟨⟨by decide, ?_, fun _ => rfl, by decide, ?_⟩, fun _ => rfl, trivial⟩
    · rintro entry hentry
      obtain rfl := List.mem_singleton.1 hentry
      exact (by decide : isName "title".toList = true)
    · rw [if_neg (by decide)]
      trivial

/-- A placeholder is replaced by the text of the value that its path leads to, in a text as well as in
    an attribute, unless its place escapes the path or the path has a comment in it. -/
theorem expand_placeholder (hv : (Path.resolve s.host path.toList (.map context)).Gives v) :
    ((∀ c ∈ ['&', '<', '>'], c ∉ path.toList) →
      (expand s (.tree (.fragment [.text (placeholderFor path) false])) (.map context)).Gives
          [.text t false] ∧
        (fragment [.text t false]).markup = t) ∧
    ((∀ c ∈ ['&', '"'], c ∉ path.toList) → cutComment? path.toList = none →
      (expand s (.tree (.fragment [titled (placeholderFor path)])) (.map context)).Gives
          [titled t] ∧
        (fragment [titled t]).markup = "<a title=\"" ++ t ++ "\"></a>") := by
  constructor
  · intro hplain
    have hescape := escape_eq_self hplain
    refine ⟨gives_expand_text hdepth hfuel hpath ht hne hinert (hescape.symm ▸ hv), ?_⟩
    rw [markup, write_fragment, writeAll_text, escape, flatMap_of_inert escapes_escapeChar hinert,
      String.ofList_toList]
  · intro hplain hcomment
    have hescape := escapeAttr_eq_self hplain
    refine ⟨gives_expand_titled hdepth hfuel hpath ht hne hinert (by rwa [hescape])
      (by rwa [hescape]), ?_⟩
    rw [markup, write_fragment, writeAll_titled hne, escapeAttr,
      flatMap_of_inert escapes_escapeAttrChar hinert, ← String.toList_inj]
    simp

end

/-- A key in single quotes is found from a text and from an attribute. -/
theorem expand_placeholder_key :
    (expand ⟨Host.none, none, ⟨1, 1⟩⟩ (.tree (.fragment [.text (placeholderFor "m['k']") false]))
        (.map [(.str "m", .map [(.str "k", .str "v")])])).Gives [.text "v" false] ∧
      (expand ⟨Host.none, none, ⟨1, 1⟩⟩ (.tree (.fragment [titled (placeholderFor "m['k']")]))
        (.map [(.str "m", .map [(.str "k", .str "v")])])).Gives [titled "v"] := by
  have hv : (Path.resolve Host.none "m['k']".toList
      (.map [(.str "m", .map [(.str "k", .str "v")])])).Gives (.str "v") := rfl
  have hinert : Inert "v".toList := by
    simp [Inert, specialChars]
  obtain ⟨htext, hattribute⟩ := expand_placeholder (s := ⟨Host.none, none, ⟨1, 1⟩⟩)
    Nat.zero_lt_one Nat.zero_lt_one (by decide) rfl (by decide) hinert hv
  exact ⟨(htext (by simp)).1, (hattribute (by simp) rfl).1⟩

/-- A key in double quotes is not found from an attribute, as the quotes are escaped there. -/
theorem raises_expand_placeholder :
    (Path.resolve Host.none "m[\"k\"]".toList
        (.map [(.str "m", .map [(.str "k", .str "v")])])).Gives (.str "v") ∧
      (expand ⟨Host.none, none, .standard⟩ (.tree (.fragment [titled (placeholderFor "m[\"k\"]")]))
        (.map [(.str "m", .map [(.str "k", .str "v")])])).Raises
          (.badSubscript "m[&quot;k&quot;]") :=
  ⟨rfl, rfl⟩

end Expansion

end Stencil
