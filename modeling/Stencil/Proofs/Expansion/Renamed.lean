import Mathlib
import Stencil.Proofs.Expansion.Guarded
import Stencil.Proofs.Markup.TableTags
import Stencil.Proofs.OrderedMap

/-!
# Renaming before and after an expansion

Tags can be renamed before a template is expanded, in the template and in all templates that it inserts,
or after it: it makes no difference, if the renaming is *neutral*, that is, if names stay names and
no tag becomes or ceases to be one that the expansion or its markup tells apart from the others. The
renaming of the parts of tables is neutral (`isNeutral_tableTag`).

The two runs are followed pass by pass, by induction on the depth. What a pass makes of the renamed nodes
is what it makes of the nodes, renamed (`Renamed`), or both end in the same failure. In the last pass
the markups differ, but their placeholders are the same, and the nodes that are read from them are the
filled nodes in normal form.

* `renamed_expandRepeats`, `renamed_expandBranches`, `renamed_expandInserts`, `renamed_finish`: the
  four passes;
* `renamed_expandInert`: all passes, at every depth;
* `expand_renameTableTags`: renaming the parts of tables before and after an expansion.
-/

namespace Stencil.Node

open Markup

/-- The tags that the expansion and the markup tell apart from others. -/
def specialTags : List String := Directive.tags ++ voidTags ++ rawTags ++ [templateTag]

/-- A map over tags that keeps names and the special tags, and makes no other tag special. -/
structure IsNeutral (f : String → String) : Prop where
  isName : ∀ {tag : String}, isName tag.toList = true → isName (f tag).toList = true
  eq_iff : ∀ {special : String}, special ∈ specialTags → ∀ tag, f tag = special ↔ tag = special

/-- Renaming the parts of tables is neutral. -/
theorem isNeutral_tableTag : IsNeutral tableTag where
  isName {tag} htag := by
    by_cases hstand : tag ∈ tableTags.map Prod.fst
    · obtain ⟨pair, hpair, rfl⟩ := List.mem_map.1 hstand
      have hreals : ∀ pair ∈ tableTags, Markup.isName pair.2.toList = true := by decide
      rw [tableTag_of_mem hpair]
      exact hreals pair hpair
    · rwa [tableTag_of_not_mem hstand]
  eq_iff {special} hspecial := by
    have hother : ∀ special ∈ specialTags, special ∉ tableTags.map Prod.fst ∧
        special ∉ tableTags.map Prod.snd := by decide
    exact tableTag_eq_iff (hother special hspecial).1 (hother special hspecial).2

variable {f : String → String}

theorem IsNeutral.mem_iff (hf : IsNeutral f) {tags : List String}
    (htags : ∀ tag ∈ tags, tag ∈ specialTags) (tag : String) : f tag ∈ tags ↔ tag ∈ tags := by
  constructor
  · intro h
    exact (hf.eq_iff (htags _ h) tag).1 rfl ▸ h
  · intro h
    exact ((hf.eq_iff (htags _ h) tag).2 rfl).symm ▸ h

theorem mem_specialTags_of_mem_tags : ∀ tag ∈ Directive.tags, tag ∈ specialTags := by decide

theorem hasTexts_mapTags (hf : IsNeutral f) {T : List Char → Prop} {n : Node} (h : n.HasTexts T) :
    (n.mapTags f).HasTexts T := by
  cases n with
  | element tag attrs children void =>
    rw [mapTags]
    exact fun htag => h fun hmem => htag ((hf.mem_iff mem_specialTags_of_mem_tags tag).2 hmem)
  | _ =>
    rw [mapTags]
    exact h

theorem lacks_mapTags (hf : IsNeutral f) {tags : List String}
    (htags : ∀ tag ∈ tags, tag ∈ Directive.tags) {n : Node} (h : n.Lacks tags) :
    (n.mapTags f).Lacks tags := by
  cases n with
  | element tag attrs children void =>
    have hspecial : ∀ tag ∈ tags, tag ∈ specialTags := fun t ht =>
      mem_specialTags_of_mem_tags t (htags t ht)
    rw [mapTags]
    exact fun hmem => h ((hf.mem_iff hspecial tag).1 hmem)
  | _ =>
    rw [mapTags]
    exact h

theorem isPlain_mapTags (hf : IsNeutral f) {n : Node} (h : n.IsPlain) : (n.mapTags f).IsPlain := by
  cases n with
  | element tag attrs children void =>
    obtain ⟨htag, hattrs, hraw, hvoid, hvoidTag, hlt⟩ := h
    have hraws : ∀ tag ∈ rawTags, tag ∈ specialTags := by decide
    have hvoids : ∀ tag ∈ voidTags, tag ∈ specialTags := by decide
    rw [mapTags]
    refine ⟨hf.isName htag, hattrs, fun hmem => hraw ((hf.mem_iff hraws tag).1 hmem), fun hv => ?_,
      fun hmem => hvoidTag ((hf.mem_iff hvoids tag).1 hmem), fun hmem => hlt fun htag => ?_⟩
    · exact mapTagsIn_eq_nil_iff.2 (hvoid hv)
    · exact hmem ((hf.mem_iff mem_specialTags_of_mem_tags tag).2 htag)
  | _ =>
    rw [mapTags]
    exact h

/-- What a template is filled in is renamed with it. -/
theorem content_mapTags (hf : IsNeutral f) (n : Node) :
    (n.mapTags f).content = mapTagsIn f n.content := by
  cases n with
  | element tag attrs children void =>
    rw [mapTags, content, content]
    have htemplate := hf.eq_iff (show templateTag ∈ specialTags by decide) tag
    by_cases htag : tag = templateTag
    · rw [if_pos (htemplate.2 htag), if_pos htag]
    · rw [if_neg fun h => htag (htemplate.1 h), if_neg htag, mapTagsIn, mapTagsIn, mapTags]
  | _ => rfl

/-- A plain node whose placeholders end in the text that they begin in and have inert paths. -/
structure Proper (n : Node) : Prop where
  plain : n.IsPlain
  wellBraced : n.HasTexts WellBraced
  inertPaths : n.HasTexts HasInertPaths

/-- A proper node that has none of the given tags. -/
structure ProperWithout (tags : List String) (n : Node) : Prop extends Proper n where
  lacks : n.Lacks tags

/-- All nodes at and below nodes are proper and have none of the given tags. -/
abbrev AllProper (tags : List String) (ns : List Node) : Prop :=
  Everywhere (fun n _ => n.ProperWithout tags) ns

theorem AllProper.mono {tags tags' : List String} (h : ∀ tag ∈ tags', tag ∈ tags) {ns : List Node}
    (hns : AllProper tags ns) : AllProper tags' ns :=
  Everywhere.imp (fun _ _ hn => ⟨hn.toProper, hn.lacks.mono h⟩) hns

theorem Settled.allProper {ns : List Node} (h : Settled ns) : AllProper Directive.tags ns :=
  Everywhere.imp (fun _ _ hn =>
    ⟨⟨hn.1, hn.2.1.imp fun _ => .plain, hn.2.1.imp fun _ => .of_unopened⟩, hn.2.2⟩) h

theorem allProper_mapTagsIn (hf : IsNeutral f) {tags : List String}
    (htags : ∀ tag ∈ tags, tag ∈ Directive.tags) {ns : List Node} (h : AllProper tags ns) :
    AllProper tags (mapTagsIn f ns) := by
  have hnode : ∀ {n : Node}, n.ProperWithout tags → (n.mapTags f).ProperWithout tags := fun hn =>
    ⟨⟨isPlain_mapTags hf hn.plain, hasTexts_mapTags hf hn.wellBraced,
      hasTexts_mapTags hf hn.inertPaths⟩, lacks_mapTags hf htags hn.lacks⟩
  induction ns using forest_induction with
  | nil => trivial
  | text data raw ns ih =>
    have hn := hnode h.1
    rw [mapTags] at hn
    rw [mapTagsIn, mapTags]
    exact ⟨hn, trivial, ih h.2.2⟩
  | comment data ns ih => exact h.1.plain.elim
  | element tag attrs children void ns ihc ih =>
    have hn := hnode h.1
    rw [mapTags] at hn
    rw [mapTagsIn, mapTags]
    exact ⟨hn, ihc h.2.1, ih h.2.2⟩
  | fragment children ns ihc ih =>
    have hn := hnode h.1
    rw [mapTags] at hn
    rw [mapTagsIn, mapTags]
    exact ⟨hn, ihc h.2.1, ih h.2.2⟩

end Stencil.Node

namespace Stencil.Expansion

open Node Evaluation

variable {f : String → String}

theorem placeholdersIn_mapTagsIn (f : String → String) (ns : List Node) :
    placeholdersIn (mapTagsIn f ns) = placeholdersIn ns := by
  induction ns using forest_induction with
  | nil => rfl
  | text data raw ns ih => simp only [mapTagsIn, mapTags, placeholdersIn, nodePlaceholders, ih]
  | comment data ns ih => simp only [mapTagsIn, mapTags, placeholdersIn, nodePlaceholders, ih]
  | element tag attrs children void ns ihc ih =>
    simp only [mapTagsIn, mapTags, placeholdersIn, nodePlaceholders, ihc, ih]
  | fragment children ns ihc ih =>
    simp only [mapTagsIn, mapTags, placeholdersIn, nodePlaceholders, ihc, ih]

/-! ### Nodes that differ in their tags -/

/-- Proper nodes, and the same ones renamed. -/
structure Renamed (f : String → String) (tags : List String) (ns ns' : List Node) : Prop where
  proper : AllProper tags ns
  eq : ns' = mapTagsIn f ns

variable {tags : List String}

theorem renamed_nil : Renamed f tags [] [] := ⟨trivial, rfl⟩

theorem Renamed.append {as as' bs bs' : List Node} (ha : Renamed f tags as as')
    (hb : Renamed f tags bs bs') : Renamed f tags (as ++ bs) (as' ++ bs') :=
  ⟨everywhere_append.2 ⟨ha.proper, hb.proper⟩, by rw [ha.eq, hb.eq, mapTagsIn_append]⟩

theorem Renamed.mono {tags' : List String} (h : ∀ tag ∈ tags', tag ∈ tags) {ns ns' : List Node}
    (hns : Renamed f tags ns ns') : Renamed f tags' ns ns' :=
  ⟨hns.proper.mono h, hns.eq⟩

theorem renamed_text {data : String} {raw : Bool} (h : (text data raw).Proper) :
    Renamed f tags [text data raw] [text data raw] :=
  ⟨⟨⟨h, trivial⟩, trivial, trivial⟩, by rw [mapTagsIn, mapTags, mapTagsIn]⟩

theorem renamed_fragment {children children' : List Node} (h : Renamed f tags children children') :
    Renamed f tags [fragment children] [fragment children'] :=
  ⟨⟨⟨⟨trivial, trivial, trivial⟩, trivial⟩, h.proper, trivial⟩, by
    rw [mapTagsIn, mapTags, mapTagsIn, h.eq]⟩

/-- An element with other children, of which a void element has none. -/
theorem renamed_element {tag : String} {attrs : Attributes} {children nodes nodes' : List Node}
    {void : Bool} (h : (element tag attrs children void).Proper) (htag : tag ∉ tags)
    (hempty : children = [] → nodes = []) (hnodes : Renamed f tags nodes nodes') :
    Renamed f tags [element tag attrs nodes void] [element (f tag) attrs nodes' void] :=
  ⟨⟨⟨⟨h.plain.of_children hempty, h.wellBraced, h.inertPaths⟩, htag⟩, hnodes.proper, trivial⟩, by
    rw [mapTagsIn, mapTags, mapTagsIn, hnodes.eq]⟩

variable {failure : Failure}

/-- Nodes in a row. -/
theorem renamed_bind_append {x x' y y' : Evaluation (List Node)}
    (hx : MatchesUnless failure (Renamed f tags) x x')
    (hy : MatchesUnless failure (Renamed f tags) y y') :
    MatchesUnless failure (Renamed f tags) (x >>= fun a => y >>= fun b => pure (a ++ b))
      (x' >>= fun a => y' >>= fun b => pure (a ++ b)) :=
  hx.bind fun _ _ _ _ ha => hy.bind fun _ _ _ _ hb => matchesUnless_pure (ha.append hb)

/-! ### The pass over repetitions -/

section

variable {host : Host} {expand expand' : Expand} {context : Context}

/-- Bodies, and the same ones renamed, expand alike. -/
def ExpandsRenamed (failure : Failure) (f : String → String) (expand expand' : Expand) : Prop :=
  ∀ context body, AllProper [] body → MatchesUnless failure (Renamed f Directive.tags)
    (expand context body) (expand' context (mapTagsIn f body))

theorem renamed_concatItems {nodesOf nodesOf' : Value → Evaluation (List Node)}
    (h : ∀ item, MatchesUnless failure (Renamed f tags) (nodesOf item) (nodesOf' item))
    (items : List Value) :
    MatchesUnless failure (Renamed f tags) (concatItems nodesOf items) (concatItems nodesOf' items) := by
  induction items with
  | nil => exact matchesUnless_pure renamed_nil
  | cons item items ih => exact renamed_bind_append (h item) ih

theorem renamed_expandRepeats (hf : IsNeutral f) (hexpand : ExpandsRenamed failure f expand expand')
    {ns : List Node} (h : AllProper [] ns) :
    MatchesUnless failure (Renamed f [Directive.repeatTag]) (expandRepeats host expand context ns)
      (expandRepeats host expand' context (mapTagsIn f ns)) := by
  induction ns using forest_induction with
  | nil => exact matchesUnless_pure renamed_nil
  | text data raw ns ih =>
    rw [mapTagsIn, mapTags, expandRepeats, expandRepeats, expandRepeatsAt, expandRepeatsAt]
    exact renamed_bind_append (matchesUnless_pure (renamed_text h.1.toProper)) (ih h.2.2)
  | comment data ns ih => exact h.1.plain.elim
  | fragment children ns ihc ih =>
    rw [mapTagsIn, mapTags, expandRepeats, expandRepeats, expandRepeatsAt, expandRepeatsAt]
    refine renamed_bind_append ((ihc h.2.1).bind fun _ _ _ _ hc => ?_) (ih h.2.2)
    exact matchesUnless_pure (renamed_fragment hc)
  | element tag attrs children void ns ihc ih =>
    obtain ⟨hn, hchildren, h⟩ := h
    have hrepeat := hf.eq_iff (show Directive.repeatTag ∈ specialTags by decide) tag
    rw [mapTagsIn, mapTags, expandRepeats, expandRepeats]
    refine renamed_bind_append ?_ (ih h)
    by_cases htag : tag = Directive.repeatTag
    · rw [expandRepeatsAt_repeat htag, expandRepeatsAt_repeat (hrepeat.2 htag), hrepeat.2 htag, htag]
      refine matchesUnless_bind_self fun r _ => renamed_concatItems (fun item => ?_) r.items
      exact (hexpand _ children hchildren).imp fun _ _ hr => hr.mono (by decide)
    · rw [expandRepeatsAt_element htag, expandRepeatsAt_element fun he => htag (hrepeat.1 he)]
      refine (ihc hchildren).bind fun c c' hc _ hcc' => matchesUnless_pure ?_
      exact renamed_element hn.toProper (by simpa using htag) (eq_nil_of_gives_expandRepeats hc) hcc'

/-! ### The pass over conditionals -/

/-- What a node becomes, and what it leaves for the next alternative: blank texts, which have no
    tags. -/
structure BranchRenamed (f : String → String) (b b' : List Node × Pending) : Prop where
  nodes : Renamed f branchTags b.1 b'.1
  pending : b'.2 = b.2
  blanks : ∀ n ∈ b.2.blanks, n.isBlank = true

theorem renamed_blanks {blanks : List Node} (h : ∀ n ∈ blanks, n.isBlank = true) :
    Renamed f tags blanks blanks := by
  induction blanks with
  | nil => exact renamed_nil
  | cons n blanks ih =>
    cases n with
    | text data raw =>
      have hsettled := (settled_of_isBlank (h _ List.mem_cons_self)).allProper
      exact (renamed_text hsettled.1.toProper).append (ih fun m hm => h m (List.mem_cons_of_mem _ hm))
    | _ => exact absurd (h _ List.mem_cons_self) Bool.false_ne_true

theorem isBlank_of_mem_nothing : ∀ b ∈ Pending.nothing.blanks, b.isBlank = true :=
  fun _ hb => absurd hb List.not_mem_nil

theorem branchRenamed_nothing {nodes nodes' : List Node} (h : Renamed f branchTags nodes nodes') :
    BranchRenamed f (nodes, .nothing) (nodes', .nothing) :=
  ⟨h, rfl, isBlank_of_mem_nothing⟩

/-- What is held back does not depend on how a node is tagged. -/
theorem released_mapTags (hf : IsNeutral f) (pending : Pending) (n : Node) :
    pending.released (n.mapTags f) = pending.released n := by
  have helse : (n.mapTags f).hasTag Directive.elseTag = n.hasTag Directive.elseTag := by
    cases n with
    | element tag attrs children void =>
      rw [mapTags, hasTag, hasTag, Bool.eq_iff_iff, beq_iff_eq, beq_iff_eq]
      exact hf.eq_iff (by decide) tag
    | fragment children =>
      rw [mapTags]
      rfl
    | _ => rw [mapTags]
  rw [Pending.released, Pending.released, isBlank_mapTags, helse]

theorem blanks_released {pending : Pending} (h : ∀ n ∈ pending.blanks, n.isBlank = true) (n : Node) :
    ∀ b ∈ pending.released n, b.isBlank = true := by
  rw [Pending.released]
  split_ifs
  · exact fun _ hb => absurd hb List.not_mem_nil
  · exact h

/-- A blank text stays where it is or is held back, and any other one stays. -/
theorem renamed_branchNode_text {data : String} {raw : Bool} (hn : (text data raw).Proper)
    {pending : Pending} (hblanks : ∀ b ∈ pending.blanks, b.isBlank = true) :
    MatchesUnless failure (BranchRenamed f)
      (branchNode host expand context (.text data raw) pending)
      (branchNode host expand' context (.text data raw) pending) := by
  rw [branchNode, branchNode]
  split_ifs with hblank
  · refine matchesUnless_pure ?_
    cases pending with
    | nothing => exact branchRenamed_nothing (renamed_text hn)
    | expanded blanks =>
      refine ⟨renamed_nil, rfl, fun b hb => ?_⟩
      rcases List.mem_append.1 hb with hb | hb
      · exact hblanks b hb
      · exact List.mem_singleton.1 hb ▸ hblank
  · exact matchesUnless_pure (branchRenamed_nothing (renamed_text hn))

/-- A node by itself, given its children. -/
theorem renamed_branchNode (hf : IsNeutral f) (hexpand : ExpandsRenamed failure f expand expand')
    {n : Node} (hn : n.ProperWithout [Directive.repeatTag])
    (hbelow : AllProper [Directive.repeatTag] n.children)
    (hchildren : MatchesUnless failure (Renamed f branchTags)
      (expandBranches host expand context n.children .nothing)
      (expandBranches host expand' context (mapTagsIn f n.children) .nothing))
    {pending : Pending} (hblanks : ∀ b ∈ pending.blanks, b.isBlank = true) :
    MatchesUnless failure (BranchRenamed f) (branchNode host expand context n pending)
      (branchNode host expand' context (n.mapTags f) pending) := by
  cases n with
  | text data raw =>
    rw [mapTags]
    exact renamed_branchNode_text hn.toProper hblanks
  | comment data => exact hn.plain.elim
  | fragment children =>
    rw [mapTags, branchNode, branchNode]
    exact hchildren.bind fun _ _ _ _ hc =>
      matchesUnless_pure (branchRenamed_nothing (renamed_fragment hc))
  | element tag attrs children void =>
    have hif := hf.eq_iff (show Directive.ifTag ∈ specialTags by decide) tag
    have helse := hf.eq_iff (show Directive.elseTag ∈ specialTags by decide) tag
    -- The body of a directive may have repetitions, as it is expanded from the start.
    have hbody : MatchesUnless failure (Renamed f branchTags) (expand context children)
        (expand' context (mapTagsIn f children)) :=
      (hexpand context children (AllProper.mono (by simp) hbelow)).imp fun _ _ hr =>
        hr.mono (by decide)
    rw [mapTags, branchNode, branchNode]
    by_cases htag : tag = Directive.ifTag
    · rw [if_pos htag, if_pos (hif.2 htag), hif.2 htag, htag]
      refine matchesUnless_bind_self fun holds _ => ?_
      cases holds with
      | true => exact hbody.bind fun _ _ _ _ hr => matchesUnless_pure (branchRenamed_nothing hr)
      | false =>
        exact matchesUnless_pure ⟨renamed_nil, rfl, fun _ hb => absurd hb List.not_mem_nil⟩
    rw [if_neg htag, if_neg fun h => htag (hif.1 h)]
    by_cases htag' : tag = Directive.elseTag
    · rw [if_pos htag', if_pos (helse.2 htag')]
      cases pending with
      | nothing => exact matchesUnless_pure (branchRenamed_nothing renamed_nil)
      | expanded blanks =>
        exact hbody.bind fun _ _ _ _ hr => matchesUnless_pure (branchRenamed_nothing hr)
    · rw [if_neg htag', if_neg fun h => htag' (helse.1 h)]
      refine hchildren.bind fun c c' hc _ hcc' => matchesUnless_pure (branchRenamed_nothing ?_)
      refine renamed_element hn.toProper ?_ (eq_nil_of_gives_expandBranches hc) hcc'
      have hrepeat := hn.lacks
      simp only [Lacks, List.mem_singleton] at hrepeat
      simp [branchTags, hrepeat, htag, htag']

theorem renamed_expandBranches_cons (hf : IsNeutral f)
    (hexpand : ExpandsRenamed failure f expand expand') {n : Node} {ns : List Node}
    (hn : n.ProperWithout [Directive.repeatTag]) (hbelow : AllProper [Directive.repeatTag] n.children)
    (hchildren : MatchesUnless failure (Renamed f branchTags)
      (expandBranches host expand context n.children .nothing)
      (expandBranches host expand' context (mapTagsIn f n.children) .nothing))
    (hns : ∀ {pending : Pending}, (∀ b ∈ pending.blanks, b.isBlank = true) →
      MatchesUnless failure (Renamed f branchTags) (expandBranches host expand context ns pending)
        (expandBranches host expand' context (mapTagsIn f ns) pending))
    {pending : Pending} (hblanks : ∀ b ∈ pending.blanks, b.isBlank = true) :
    MatchesUnless failure (Renamed f branchTags)
      (expandBranches host expand context (n :: ns) pending)
      (expandBranches host expand' context (mapTagsIn f (n :: ns)) pending) := by
  rw [mapTagsIn, expandBranches_cons, expandBranches_cons, released_mapTags hf]
  refine (renamed_branchNode hf hexpand hn hbelow hchildren hblanks).bind fun b b' _ _ hb => ?_
  rw [hb.pending]
  refine (hns hb.blanks).bind fun rest rest' _ _ hrest => matchesUnless_pure ?_
  exact (renamed_blanks (blanks_released hblanks n)).append (hb.nodes.append hrest)

theorem renamed_expandBranches (hf : IsNeutral f) (hexpand : ExpandsRenamed failure f expand expand')
    {ns : List Node} (h : AllProper [Directive.repeatTag] ns) {pending : Pending}
    (hblanks : ∀ b ∈ pending.blanks, b.isBlank = true) :
    MatchesUnless failure (Renamed f branchTags) (expandBranches host expand context ns pending)
      (expandBranches host expand' context (mapTagsIn f ns) pending) := by
  induction ns using forest_induction generalizing pending with
  | nil => exact matchesUnless_pure (renamed_blanks hblanks)
  | text data raw ns ih =>
    exact renamed_expandBranches_cons hf hexpand h.1 trivial (matchesUnless_pure renamed_nil)
      (fun hb => ih h.2.2 hb) hblanks
  | comment data ns ih => exact h.1.plain.elim
  | element tag attrs children void ns ihc ih =>
    exact renamed_expandBranches_cons hf hexpand h.1 h.2.1 (ihc h.2.1 isBlank_of_mem_nothing)
      (fun hb => ih h.2.2 hb) hblanks
  | fragment children ns ihc ih =>
    exact renamed_expandBranches_cons hf hexpand h.1 h.2.1 (ihc h.2.1 isBlank_of_mem_nothing)
      (fun hb => ih h.2.2 hb) hblanks

end

/-! ### The pass over insertions -/

theorem renamed_expandInserts (hf : IsNeutral f) {insert insert' : String → Evaluation (List Node)}
    (hinsert : ∀ id, MatchesUnless failure (Renamed f Directive.tags) (insert id) (insert' id))
    {ns : List Node} (h : AllProper branchTags ns) :
    MatchesUnless failure (Renamed f Directive.tags) (expandInserts insert ns)
      (expandInserts insert' (mapTagsIn f ns)) := by
  induction ns using forest_induction with
  | nil => exact matchesUnless_pure renamed_nil
  | text data raw ns ih =>
    rw [mapTagsIn, mapTags, expandInserts, expandInserts, expandInsertsAt, expandInsertsAt]
    exact renamed_bind_append (matchesUnless_pure (renamed_text h.1.toProper)) (ih h.2.2)
  | comment data ns ih => exact h.1.plain.elim
  | fragment children ns ihc ih =>
    rw [mapTagsIn, mapTags, expandInserts, expandInserts, expandInsertsAt, expandInsertsAt]
    refine renamed_bind_append ((ihc h.2.1).bind fun _ _ _ _ hc => ?_) (ih h.2.2)
    exact matchesUnless_pure (renamed_fragment hc)
  | element tag attrs children void ns ihc ih =>
    obtain ⟨hn, hchildren, h⟩ := h
    have htags := hf.eq_iff (show Directive.insertTag ∈ specialTags by decide) tag
    rw [mapTagsIn, mapTags, expandInserts, expandInserts, expandInsertsAt, expandInsertsAt]
    refine renamed_bind_append ?_ (ih h)
    by_cases htag : tag = Directive.insertTag
    · rw [if_pos htag, if_pos (htags.2 htag), htags.2 htag, htag]
      exact matchesUnless_bind_self fun id _ => hinsert id
    · rw [if_neg htag, if_neg fun he => htag (htags.1 he)]
      refine (ihc hchildren).bind fun c c' hc _ hcc' => matchesUnless_pure ?_
      refine renamed_element hn.toProper ?_ (eq_nil_of_gives_expandInserts hc) hcc'
      have hbranch := hn.lacks
      simp only [Lacks, branchTags, List.mem_cons, List.not_mem_nil, or_false, not_or] at hbranch
      simp [Directive.tags, hbranch, htag]

/-! ### The last pass -/

/-- If the placeholders in the markup of nodes without directives bring in inert values, the nodes can
    be filled. -/
theorem fillable_of_placeholdersIn {host : Host} {context : Context} {ns : List Node}
    (h : AllProper Directive.tags ns)
    (hinert : ∀ path ∈ placeholdersIn ns, ∀ text,
      (renderPlaceholder host (.map context) path).Gives text → Inert text) :
    Everywhere (fun n _ => FillableWithout Directive.tags host context n) ns := by
  -- Escapes change no path, so the placeholders in the markup are those of the texts.
  induction ns using forest_induction with
  | nil => trivial
  | text data raw ns ih =>
    obtain ⟨hn, -, h⟩ := h
    rw [placeholdersIn, nodePlaceholders, Markup.escape,
      placeholders_flatMap_of_inertPaths escapes_escapeChar hn.wellBraced hn.inertPaths] at hinert
    refine ⟨⟨⟨hn.plain, hn.wellBraced, hn.inertPaths, ?_⟩, trivial⟩, trivial, ih h ?_⟩
    · exact fun path hpath => hinert path (List.mem_append_left _ hpath)
    · exact fun path hpath => hinert path (List.mem_append_right _ hpath)
  | comment data ns ih => exact h.1.plain.elim
  | element tag attrs children void ns ihc ih =>
    obtain ⟨hn, hchildren, h⟩ := h
    rw [placeholdersIn, nodePlaceholders] at hinert
    refine ⟨⟨⟨hn.plain, hn.wellBraced, hn.inertPaths, fun htag entry hentry path hpath => ?_⟩, hn.lacks⟩,
      ihc hchildren fun path hpath => ?_, ih h fun path hpath => ?_⟩
    · have hentries : path ∈ entryPlaceholders attrs.entries := by
        refine List.mem_flatMap.2 ⟨entry, hentry, ?_⟩
        rwa [Markup.escapeAttr, placeholders_flatMap_of_inertPaths escapes_escapeAttrChar
          (hn.wellBraced htag entry hentry) (hn.inertPaths htag entry hentry)]
      exact hinert path (List.mem_append_left _ (List.mem_append_left _ hentries))
    · exact hinert path (List.mem_append_left _ (List.mem_append_right _ hpath))
    · exact hinert path (List.mem_append_right _ hpath)
  | fragment children ns ihc ih =>
    obtain ⟨hn, hchildren, h⟩ := h
    rw [placeholdersIn, nodePlaceholders] at hinert
    refine ⟨⟨⟨hn.plain, hn.wellBraced, hn.inertPaths, trivial⟩, trivial⟩,
      ihc hchildren fun path hpath => ?_, ih h fun path hpath => ?_⟩
    · exact hinert path (List.mem_append_left _ hpath)
    · exact hinert path (List.mem_append_right _ hpath)

/-- Renamed nodes without directives are filled to the renamed nodes. -/
theorem gives_fillNodes_mapTagsIn (hf : IsNeutral f) {host : Host}
    {insert : Context → String → Evaluation (List Node)} {context : Context} {ns nodes : List Node}
    (h : AllProper Directive.tags ns)
    (hnodes : (fillNodes host insert ns context .nothing).Gives nodes) :
    (fillNodes host insert (mapTagsIn f ns) context .nothing).Gives (mapTagsIn f nodes) := by
  induction ns using forest_induction generalizing nodes with
  | nil =>
    obtain rfl := gives_fillNodes_nil.1 hnodes
    exact gives_fillNodes_nil.2 rfl
  | text data raw ns ih =>
    obtain ⟨⟨filled, next⟩, rest, hfilled, hrest, rfl⟩ := gives_fillNodes_cons.1 hnodes
    have htext : next = .nothing ∧ mapTagsIn f filled = filled := by
      by_cases hblank : (text data raw).isBlank = true
      · obtain ⟨rfl, rfl⟩ := Prod.mk.inj ((gives_fillNode_blank hblank).1 hfilled)
        exact ⟨rfl, by rw [mapTagsIn, mapTags, mapTagsIn]⟩
      · obtain ⟨data', -, hpair⟩ := (gives_fillNode_text (by simpa using hblank)).1 hfilled
        obtain ⟨rfl, rfl⟩ := Prod.mk.inj hpair
        exact ⟨rfl, by rw [mapTagsIn, mapTags, mapTagsIn]⟩
    obtain ⟨rfl, hsame⟩ := htext
    rw [mapTagsIn, mapTags, released_nothing, List.nil_append, mapTagsIn_append, hsame]
    exact gives_fillNodes_cons.2 ⟨(filled, .nothing), _, hfilled, ih h.2.2 hrest, by
      rw [released_nothing, List.nil_append]⟩
  | comment data ns ih => exact h.1.plain.elim
  | element tag attrs children void ns ihc ih =>
    obtain ⟨⟨filled, next⟩, rest, hfilled, hrest, rfl⟩ := gives_fillNodes_cons.1 hnodes
    have htag : tag ∉ Directive.tags := h.1.lacks
    have htag' : f tag ∉ Directive.tags := fun hm =>
      htag ((hf.mem_iff mem_specialTags_of_mem_tags tag).1 hm)
    obtain ⟨attrs', nodes, hattrs, hbody, hpair⟩ := (gives_fillNode_element htag).1 hfilled
    obtain ⟨rfl, rfl⟩ := Prod.mk.inj hpair
    rw [mapTagsIn, mapTags, released_nothing, List.nil_append, mapTagsIn_append, mapTagsIn, mapTags,
      mapTagsIn]
    refine gives_fillNodes_cons.2 ⟨(_, .nothing), _, (gives_fillNode_element htag').2
      ⟨attrs', _, hattrs, ihc h.2.1 hbody, rfl⟩, ih h.2.2 hrest, ?_⟩
    rw [released_nothing, List.nil_append]
  | fragment children ns ihc ih =>
    obtain ⟨⟨filled, next⟩, rest, hfilled, hrest, rfl⟩ := gives_fillNodes_cons.1 hnodes
    obtain ⟨nodes, hbody, hpair⟩ := gives_fillNode_fragment.1 hfilled
    obtain ⟨rfl, rfl⟩ := Prod.mk.inj hpair
    rw [mapTagsIn, mapTags, released_nothing, List.nil_append, mapTagsIn_append, mapTagsIn, mapTags,
      mapTagsIn]
    refine gives_fillNodes_cons.2 ⟨(_, .nothing), _, gives_fillNode_fragment.2
      ⟨_, ihc h.2.1 hbody, rfl⟩, ih h.2.2 hrest, ?_⟩
    rw [released_nothing, List.nil_append]

/-- The markup of nodes without directives has no comments. -/
theorem stripComments_writeAll {ns : List Node} (h : AllProper Directive.tags ns) :
    stripComments (writeAll ns) = writeAll ns := by
  have hcalm := calm_writeAll (h.imp fun _ _ hn => ⟨hn.plain, hn.lacks⟩) (show Calm [] from rfl)
  rw [List.append_nil] at hcalm
  exact stripComments_of_calm hcalm

theorem renamed_finish (hf : IsNeutral f) {host : Host} {context : Context} {fuel : Nat}
    {ns : List Node} (h : AllProper Directive.tags ns) :
    MatchesUnless failure (Renamed f Directive.tags)
      (interpolateInert failure host (.map context) fuel (stripComments (writeAll ns)) >>= fun t =>
        Evaluation.ofMarkup (Node.parse (String.ofList t)))
      (interpolate host (.map context) fuel (stripComments (writeAll (mapTagsIn f ns))) >>= fun t =>
        Evaluation.ofMarkup (Node.parse (String.ofList t))) := by
  have hempty : Unopened [] := trivial
  have h' : AllProper Directive.tags (mapTagsIn f ns) := allProper_mapTagsIn hf (fun _ ht => ht) h
  have hbears := bears_writeAll (h.imp fun _ _ hn => ⟨hn.plain, hn.wellBraced, hn.lacks⟩)
  have hbears' := bears_writeAll (h'.imp fun _ _ hn => ⟨hn.plain, hn.wellBraced, hn.lacks⟩)
  have hsame : placeholders (writeAll ns) = placeholders (writeAll (mapTagsIn f ns)) := by
    rw [hbears.placeholders_eq, hbears'.placeholders_eq, placeholdersIn_mapTagsIn]
  rw [stripComments_writeAll h, stripComments_writeAll h']
  refine (matchesUnless_interpolateInert hbears.wellBraced hbears'.wellBraced hsame hempty hempty
    fuel).bind fun t t' ht ht' _ => ?_
  have hinert := fillsInert_of_gives_interpolateInert hbears.wellBraced hempty ht
  rw [FillsInert, hbears.placeholders_eq] at hinert
  have hfillable := fillable_of_placeholdersIn h hinert
  have hfillable' := fillable_of_placeholdersIn h' (by rwa [placeholdersIn_mapTagsIn])
  -- Both runs read what the nodes are filled to, in normal form.
  rw [← stripComments_writeAll h] at ht
  rw [← stripComments_writeAll h'] at ht'
  obtain ⟨g, hg, hparse, hfill⟩ := @parse_of_gives_interpolate _ _ (fun _ _ => pure []) _
    (hfillable.imp fun _ _ hn => hn.renderable) _ _ (gives_interpolate_of_inert ht)
  obtain ⟨g', hg', hparse', hfill'⟩ := @parse_of_gives_interpolate _ _ (fun _ _ => pure []) _
    (hfillable'.imp fun _ _ hn => hn.renderable) _ _ ht'
  have hgg' : g' = mapTagsIn f g :=
    (hfill' (h'.imp fun _ _ hn => hn.inertPaths)).unique
      (gives_fillNodes_mapTagsIn hf h (hfill (h.imp fun _ _ hn => hn.inertPaths)))
  rw [hparse, hparse']
  refine matchesUnless_pure ⟨hg.normalize.allProper, ?_⟩
  rw [hgg', normalize_mapTagsIn]

end Stencil.Expansion

namespace Stencil

open Node Evaluation

/-- What an expansion works with, with the tags of all templates mapped. -/
def Surroundings.mapTags (f : String → String) (s : Surroundings) : Surroundings :=
  { s with registry := s.registry.map fun registry => registry.mapValues (Node.mapTags f) }

/-- What an expansion works with, with the parts of tables renamed in all templates. -/
def Surroundings.renameTableTags (s : Surroundings) : Surroundings :=
  { s with registry := s.registry.map fun registry => registry.mapValues Node.renameTableTags }

theorem Surroundings.renameTableTags_eq_mapTags (s : Surroundings) :
    s.renameTableTags = s.mapTags tableTag := by
  have h : Node.renameTableTags = Node.mapTags tableTag := funext Node.renameTableTags_eq_mapTags
  rw [Surroundings.renameTableTags, Surroundings.mapTags, h]

/-- A template that is renamed is found where it was found. -/
theorem Surroundings.find_mapTags (f : String → String) (s : Surroundings) (id : String) :
    (s.mapTags f).registry.bind (·.get? id) =
      (s.registry.bind (·.get? id)).map (Node.mapTags f) := by
  rw [mapTags]
  cases s.registry with
  | none => rfl
  | some registry => exact registry.get?_mapValues (Node.mapTags f) id

namespace Expansion

variable {f : String → String} {failure : Failure} {s : Surroundings}

/-! ### All passes -/

/-- All templates that can be inserted are proper. -/
def ProperTemplates (s : Surroundings) : Prop :=
  ∀ id template, s.registry.bind (·.get? id) = some template →
    Everywhere (fun n _ => n.Proper) template.content

theorem allProper_of_proper {ns : List Node} (h : Everywhere (fun n _ => n.Proper) ns) :
    AllProper [] ns := by
  refine Everywhere.imp (fun n _ hn => ⟨hn, ?_⟩) h
  cases n with
  | element => exact List.not_mem_nil
  | _ => trivial

theorem renamed_expandInsert (hf : IsNeutral f) (htemplates : ProperTemplates s)
    {expand expand' : List String → List Node → Evaluation (List Node)}
    (hexpand : ∀ inserting ns, AllProper [] ns → MatchesUnless failure (Renamed f Directive.tags)
      (expand inserting ns) (expand' inserting (mapTagsIn f ns))) (inserting : List String)
    (id : String) :
    MatchesUnless failure (Renamed f Directive.tags) (expandInsert s.registry expand inserting id)
      (expandInsert (s.mapTags f).registry expand' inserting id) := by
  rw [expandInsert, expandInsert]
  split_ifs with hid
  · exact matchesUnless_fail _
  rw [s.find_mapTags f id]
  cases hfound : s.registry.bind (·.get? id) with
  | none => exact matchesUnless_fail _
  | some template =>
    simp only [Option.map_some]
    rw [content_mapTags hf]
    exact hexpand _ _ (allProper_of_proper (htemplates id template hfound))

/-- Renamed nodes expand to the renamed nodes at every depth, or both expansions end in the same
    failure. -/
theorem renamed_expandInert (hf : IsNeutral f) (htemplates : ProperTemplates s) (depth : Nat)
    (inserting : List String) (context : Context) {ns : List Node} (h : AllProper [] ns) :
    MatchesUnless failure (Renamed f Directive.tags)
      (expandInert failure s depth inserting context ns)
      (expandNodes (s.mapTags f) depth inserting context (mapTagsIn f ns)) := by
  induction depth generalizing inserting context ns with
  | zero => exact matchesUnless_fail _
  | succ depth ih =>
    rw [expandInert, expandNodes]
    refine (renamed_expandRepeats hf (fun context body => ih inserting context) h).bind
      fun a a' _ _ ha => ?_
    rw [ha.eq]
    refine (renamed_expandBranches hf (fun context body => ih inserting context) ha.proper
      isBlank_of_mem_nothing).bind fun b b' _ _ hb => ?_
    rw [hb.eq]
    refine (renamed_expandInserts hf (renamed_expandInsert hf htemplates
      (fun inserting ns => ih inserting context) inserting) hb.proper).bind fun c c' _ _ hc => ?_
    rw [hc.eq]
    exact renamed_finish hf hc.proper

/-- A tree is expanded by its content. -/
theorem expand_tree (s : Surroundings) (node : Node) (context : Context) :
    expand s (.tree node) (.map context) = expandNodes s s.limits.depth [] context node.content :=
  rfl

/-- Renaming the parts of tables in a template and in all templates that it inserts, and expanding it,
    is the same as expanding it and renaming them then: the same nodes, or the same failure, and the
    same calls. Renaming a second time changes nothing, and the first time it changes tags only. -/
theorem expand_renameTableTags {context : Context} {node : Node}
    (hnode : Everywhere (fun n _ => n.Proper) node.content) (htemplates : ProperTemplates s)
    (hinert : FillsInertly s context node.content) :
    (do return renameTableTagsIn (← expand s (.tree node) (.map context))) =
      expand s.renameTableTags (.tree node.renameTableTags) (.map context) ∧
    ∀ n : Node, n.renameTableTags.renameTableTags = n.renameTableTags ∧
      n.renameTableTags.eraseTags = n.eraseTags := by
  refine ⟨?_, fun n => ⟨renameTableTags_idem n, eraseTags_renameTableTags n⟩⟩
  have hexpand : expand s.renameTableTags (.tree node.renameTableTags) (.map context) =
      expandNodes (s.mapTags tableTag) s.limits.depth [] context
        (mapTagsIn tableTag node.content) := by
    rw [expand_tree, renameTableTags_eq_mapTags, content_mapTags isNeutral_tableTag,
      s.renameTableTags_eq_mapTags]
    rfl
  -- Some failure is not the one that the expansion ends in.
  obtain ⟨failure, hfailure⟩ : ∃ failure,
      (expandNodes s s.limits.depth [] context node.content).outcome ≠ .error failure := by
    by_cases hunfinished :
        (expandNodes s s.limits.depth [] context node.content).outcome = .error .unfinished
    · exact ⟨.callee "", by rw [hunfinished]; simp⟩
    · exact ⟨.unfinished, hunfinished⟩
  have hrun : MatchesUnless failure (Renamed tableTag Directive.tags) _ _ :=
    renamed_expandInert isNeutral_tableTag htemplates s.limits.depth [] context
      (allProper_of_proper hnode)
  rw [hinert failure] at hrun
  rcases hrun with hrun | hrun
  · exact absurd hrun hfailure
  · have hmapped := (hrun.bind (S := (· = ·)) (f := fun r => pure (renameTableTagsIn r)) (g := pure)
      fun r r' hr => matches_pure (by rw [hr.eq, renameTableTagsIn_eq_mapTagsIn])).eq
    rw [bind_pure] at hmapped
    rw [expand_tree, hexpand, ← hmapped]

/-- A table with an inserted row for every element. -/
def rows : Node :=
  .element "t" OrderedMap.empty [.element "repeat" (.ofList [("for", "y of xs")])
    [.element "insert" (.ofList [("template", "row")]) [] false] false] false

/-- A row with one cell. -/
def row : Node :=
  .element "trow" OrderedMap.empty
    [.element "tcell" OrderedMap.empty [.text "\x7b\x7by\x7d\x7d" false] false] false

/-- The row as the only template. -/
def rowShelf : Surroundings := ⟨Host.none, some (.ofList [("row", row)]), ⟨3, 1⟩⟩

/-- Two elements, and a value that is not inert and does not come in. -/
def rowContext : Context := [(.str "xs", .list [.str "a", .str "b"]), (.str "z", .str "<")]

/-- The table with two rows. -/
def expandedRows : List Node :=
  let cell (data : String) : Node := .element "trow" OrderedMap.empty
    [.element "tcell" OrderedMap.empty [.text data false] false] false
  [.element "t" OrderedMap.empty [cell "a", cell "b"] false]

theorem proper_of_directive {tag : String} {attrs : Attributes} {children : List Node} {void : Bool}
    (htag : tag ∈ Directive.tags) (h : (element tag attrs children void).IsPlain) :
    (element tag attrs children void).Proper :=
  ⟨h, hasTexts_of_directive htag _ _ _, hasTexts_of_directive htag _ _ _⟩

theorem proper_of_bare {tag : String} {children : List Node} {void : Bool}
    (h : (element tag OrderedMap.empty children void).IsPlain) :
    (element tag OrderedMap.empty children void).Proper :=
  ⟨h, fun _ _ he => absurd he List.not_mem_nil, fun _ _ he => absurd he List.not_mem_nil⟩

theorem proper_rows : Everywhere (fun n _ => n.Proper) rows.content := by
  refine ⟨proper_of_bare ⟨?_, ?_, ?_, ?_, ?_, fun _ _ he => absurd he List.not_mem_nil⟩,
    ⟨proper_of_directive (by decide) ⟨?_, ?_, ?_, ?_, ?_, fun h => absurd (by decide) h⟩,
      ⟨proper_of_directive (by decide) ⟨?_, ?_, ?_, ?_, ?_, fun h => absurd (by decide) h⟩,
        trivial, trivial⟩, trivial⟩, trivial⟩
  all_goals decide

theorem properTemplates_rowShelf : ProperTemplates rowShelf := by
  have hempty : Unopened [] := trivial
  have hclosed : Unclosed ['y'] := by decide
  have hpaths : placeholders "\x7b\x7by\x7d\x7d".toList = [['y']] := placeholders_single hclosed
  have hinertPaths : HasInertPaths "\x7b\x7by\x7d\x7d".toList := by
    rw [HasInertPaths, hpaths]
    decide
  have hrow : Everywhere (fun n _ => n.Proper) row.content := by
    refine ⟨proper_of_bare ⟨?_, ?_, ?_, ?_, ?_, fun _ _ he => absurd he List.not_mem_nil⟩,
      ⟨proper_of_bare ⟨?_, ?_, ?_, ?_, ?_, fun _ _ he => absurd he List.not_mem_nil⟩,
        ⟨⟨rfl, .cons hempty hclosed (.plain hempty), hinertPaths⟩, trivial, trivial⟩, trivial⟩,
      trivial⟩
    all_goals decide
  intro id template htemplate
  change (if "row" = id then some row else none) = some template at htemplate
  split at htemplate
  · exact Option.some.inj htemplate ▸ hrow
  · cases htemplate

theorem expandNodes_rows :
    expandNodes rowShelf rowShelf.limits.depth [] rowContext rows.content = pure expandedRows := by
  cbv

/-- Both values that come in are inert. -/
theorem fillsInertly_rows : FillsInertly rowShelf rowContext rows.content := by
  intro failure
  rw [expandNodes_rows]
  cbv

/-- A table of two rows. -/
theorem expand_renameTableTags_rows :
    Everywhere (fun n _ => n.Proper) rows.content ∧ ProperTemplates rowShelf ∧
    FillsInertly rowShelf rowContext rows.content ∧
    expand rowShelf (.tree rows) (.map rowContext) = pure expandedRows ∧
    (do return renameTableTagsIn (← expand rowShelf (.tree rows) (.map rowContext))) =
      expand rowShelf.renameTableTags (.tree rows.renameTableTags) (.map rowContext) :=
  ⟨proper_rows, properTemplates_rowShelf, fillsInertly_rows,
    (expand_tree _ _ _).trans expandNodes_rows,
    (expand_renameTableTags proper_rows properTemplates_rowShelf fillsInertly_rows).1⟩

end Expansion

end Stencil
