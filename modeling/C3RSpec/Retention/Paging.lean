import C3RSpec.Base.Loop
import C3RSpec.Retention.Inventory

/-!
# Listing ends unless the pages never do

`c3r/retention_job.py:126–161`. A returned inventory holds the objects of all pages, from the
first to the one without a token, and no page was requested twice. The loop has no bound on the
number of pages: a repeated token and too many objects stop it, and a server that keeps answering
with new tokens and few objects does neither.
-/

namespace C3RSpec.Retention

open Base

/-- A page that is not the last one: its objects and the token of the next page. -/
abbrev Page := List StoredObject × Text

/-- The token that the pages so far have led to. -/
def lastToken (pages : List Page) : Option Text := pages.getLast?.map Prod.snd

/-- The objects of the pages so far. -/
def objectsOf (pages : List Page) : List StoredObject := pages.flatMap Prod.fst

section Paging

variable [IsoDates] [DecimalDigits]

/-- What an answer holds as a page. -/
structure IsPage (data : Json) (items : List StoredObject) (next : Option Text) : Prop where
  isObject : ∃ es, data = .obj es
  items : ∃ raws, objectItems data = .ok raws ∧
    List.Forall₂ (fun raw obj ↦ storedObject raw = .ok obj) raws items
  next : nextToken data [] = .ok next

variable (bucket : Text) (server : Server)

/-- After these pages and requests, the server answers the request for the next page. -/
structure Answers (pages : List Page) (urls : List Text) (url : Text) (items : List StoredObject)
    (next : Option Text) : Prop where
  address : listUrl bucket (lastToken pages) = .ok url
  answer : ∃ data, server (urls ++ [url]) = .ok data ∧ IsPage data items next

/-- The server answers the requests with these pages, each of which brings a new token. -/
inductive Pages : List Page → List Text → Prop
  | nil : Pages [] []
  | snoc {pages : List Page} {urls : List Text} {url : Text} {items : List StoredObject}
      {token : Text} (h : Pages pages urls)
      (hpage : Answers bucket server pages urls url items (some token))
      (fresh : token ∉ pages.map Prod.snd) : Pages (pages ++ [(items, token)]) (urls ++ [url])

/-- An inventory: pages from the first one on, and a page without a token. -/
structure Inventory (found : List StoredObject) (requested : List Text) : Prop where
  pages : ∃ pages urls url items, Pages bucket server pages urls ∧
    Answers bucket server pages urls url items none ∧
    found = objectsOf pages ++ items ∧ requested = urls ++ [url]
  once : requested.Nodup

/-- Listing ends, and what it returns is an inventory. -/
structure ListsInventory : Prop where
  ends : ∃ pages outcome, listAll bucket server pages = some outcome
  complete : ∀ pages found requested,
    listAll bucket server pages = some (.ok found, requested) →
      Inventory bucket server found requested

/-- The server has a page for every request, all tokens are new and the objects stay few. -/
def PagesWithoutEnd : Prop :=
  ∃ page : Nat → Page, ∀ n, (∃ urls, Pages bucket server ((List.range n).map page) urls) ∧
    (objectsOf ((List.range n).map page)).length ≤ inventoryLimit

/-- The variables of the loop after some pages. -/
def stateOf (pages : List Page) (urls : List Text) : Listing :=
  ⟨objectsOf pages, lastToken pages, pages.map Prod.snd, urls⟩

/-! ### One page -/

private theorem readItems_eq_ok_iff {raws : List Json} {found found' : List StoredObject}
    (h : found.length ≤ inventoryLimit) :
    readItems raws found = .ok found' ↔
      ∃ items, List.Forall₂ (fun raw obj ↦ storedObject raw = .ok obj) raws items ∧
        found' = found ++ items ∧ found'.length ≤ inventoryLimit := by
  induction raws generalizing found with
  | nil =>
    rw [readItems]
    constructor
    · intro hf
      cases hf
      exact ⟨[], .nil, by simp, h⟩
    · rintro ⟨items, hitems, rfl, -⟩
      cases hitems
      rw [List.append_nil]
  | cons raw rest ih =>
    rw [readItems, bind_eq_ok]
    constructor
    · rintro ⟨obj, hobj, hrest⟩
      by_cases hmany : inventoryLimit < (found ++ [obj]).length
      · rw [if_pos hmany] at hrest
        cases hrest
      · rw [if_neg hmany] at hrest
        obtain ⟨items, hitems, rfl, hle⟩ := (ih (Nat.not_lt.mp hmany)).mp hrest
        exact ⟨obj :: items, .cons hobj hitems, by simp, hle⟩
    · rintro ⟨items, hitems, rfl, hle⟩
      cases hitems with
      | @cons _ obj _ items hobj hitems =>
        refine ⟨obj, hobj, ?_⟩
        have hfew : ¬ inventoryLimit < (found ++ [obj]).length := by
          rw [List.length_append, List.length_cons] at hle
          rw [List.length_append, List.length_singleton]
          omega
        rw [if_neg hfew]
        exact (ih (Nat.not_lt.mp hfew)).mpr ⟨items, hitems, by simp, hle⟩

omit [IsoDates] [DecimalDigits] in
private theorem nextToken_eq_ok_iff {data : Json} {seenTokens : List Text} {next : Option Text} :
    nextToken data seenTokens = .ok next ↔
      nextToken data [] = .ok next ∧ ∀ token, next = some token → token ∉ seenTokens := by
  unfold nextToken
  cases hget : data.get? "nextPageToken" with
  | none =>
    simp only [Except.ok.injEq]
    constructor
    · rintro rfl
      exact ⟨rfl, fun _ h ↦ by cases h⟩
    · exact fun h ↦ h.1
  | some value =>
    cases value with
    | null =>
      simp only [Except.ok.injEq]
      constructor
      · rintro rfl
        exact ⟨rfl, fun _ h ↦ by cases h⟩
      · exact fun h ↦ h.1
    | str token =>
      by_cases hnil : token = []
      · simp [hnil]
      · by_cases hseen : token ∈ seenTokens
        · simp only [hnil, hseen, or_true, if_true, List.not_mem_nil, or_self, if_false]
          constructor
          · intro h
            cases h
          · rintro ⟨hnext, hfresh⟩
            exact absurd hseen (hfresh token (Except.ok.inj hnext).symm)
        · simp only [hnil, hseen, List.not_mem_nil, or_self, if_false, Except.ok.injEq]
          constructor
          · rintro rfl
            refine ⟨rfl, ?_⟩
            rintro _ ⟨⟩
            exact hseen
          · exact fun h ↦ h.1
    | bool b | int n | float x | arr xs | obj es => simp

omit [IsoDates] [DecimalDigits] in
private theorem getObject_eq_ok_iff {requested : List Text} {data : Json} :
    getObject server requested = .ok data ↔ server requested = .ok data ∧ ∃ es, data = .obj es := by
  rw [getObject, bind_eq_ok]
  constructor
  · rintro ⟨answer, hanswer, h⟩
    cases answer with
    | obj es =>
      cases h
      exact ⟨hanswer, es, rfl⟩
    | null | bool b | int n | float x | str t | arr xs => cases h
  · rintro ⟨hanswer, es, rfl⟩
    exact ⟨.obj es, hanswer, rfl⟩

variable {bucket server}

private theorem readPage_eq_ok_iff {s : Listing} {requested : List Text}
    {found : List StoredObject} {next : Option Text} (h : s.found.length ≤ inventoryLimit) :
    readPage server s requested = .ok (found, next) ↔
      ∃ data items, server requested = .ok data ∧ IsPage data items next ∧
        (∀ token, next = some token → token ∉ s.seenTokens) ∧
        found = s.found ++ items ∧ found.length ≤ inventoryLimit := by
  unfold readPage
  simp only [bind_eq_ok, getObject_eq_ok_iff, readItems_eq_ok_iff h]
  constructor
  · rintro ⟨data, ⟨hdata, hobject⟩, raws, hraws, _, ⟨items, hitems, rfl, hle⟩, _, hnext, hret⟩
    cases hret
    obtain ⟨hnext, hfresh⟩ := nextToken_eq_ok_iff.mp hnext
    exact ⟨data, items, hdata, ⟨hobject, ⟨raws, hraws, hitems⟩, hnext⟩, hfresh, rfl, hle⟩
  · rintro ⟨data, items, hdata, ⟨hobject, ⟨raws, hraws, hitems⟩, hnext⟩, hfresh, rfl, hle⟩
    exact ⟨data, ⟨hdata, hobject⟩, raws, hraws, _, ⟨items, hitems, rfl, hle⟩, next,
      nextToken_eq_ok_iff.mpr ⟨hnext, hfresh⟩, rfl⟩

omit [IsoDates] [DecimalDigits] in
private theorem stateOf_snoc (pages : List Page) (urls : List Text) (items : List StoredObject)
    (token url : Text) :
    (⟨objectsOf pages ++ items, some token, pages.map Prod.snd ++ [token], urls ++ [url]⟩ :
      Listing) = stateOf (pages ++ [(items, token)]) (urls ++ [url]) := by
  simp [stateOf, objectsOf, lastToken]

/-- The loop goes on exactly after a page that brings a new token and few objects. -/
theorem listTurn_eq_inl_iff {pages : List Page} {urls : List Text} {t : Listing}
    (h : (objectsOf pages).length ≤ inventoryLimit) :
    listTurn bucket server (stateOf pages urls) = .inl t ↔
      ∃ url items token, Answers bucket server pages urls url items (some token) ∧
        token ∉ pages.map Prod.snd ∧
        (objectsOf (pages ++ [(items, token)])).length ≤ inventoryLimit ∧
        t = stateOf (pages ++ [(items, token)]) (urls ++ [url]) := by
  have hobjects : ∀ items token, objectsOf (pages ++ [(items, token)]) = objectsOf pages ++ items :=
    fun items token ↦ by simp [objectsOf]
  rw [listTurn]
  constructor
  · intro hturn
    cases hurl : listUrl bucket (stateOf pages urls).pageToken with
    | error e =>
      rw [hurl] at hturn
      cases hturn
    | ok url =>
      rw [hurl] at hturn
      dsimp only at hturn
      cases hread : readPage server (stateOf pages urls)
          ((stateOf pages urls).requested ++ [url]) with
      | error e =>
        rw [hread] at hturn
        cases hturn
      | ok r =>
        obtain ⟨found, next⟩ := r
        rw [hread] at hturn
        cases next with
        | none => cases hturn
        | some token =>
          cases hturn
          obtain ⟨data, items, hdata, hpage, hfresh, rfl, hle⟩ := (readPage_eq_ok_iff h).mp hread
          refine ⟨url, items, token, ⟨hurl, data, hdata, hpage⟩, hfresh token rfl, ?_, ?_⟩
          · rw [hobjects]
            exact hle
          · exact stateOf_snoc pages urls items token url
  · rintro ⟨url, items, token, ⟨hurl, data, hdata, hpage⟩, hfresh, hle, rfl⟩
    have hread : readPage server (stateOf pages urls) (urls ++ [url]) =
        .ok (objectsOf pages ++ items, some token) := by
      refine (readPage_eq_ok_iff h).mpr ⟨data, items, hdata, hpage, ?_, rfl, ?_⟩
      · rintro _ ⟨⟩
        exact hfresh
      · rw [← hobjects items token]
        exact hle
    have hurl : listUrl bucket (stateOf pages urls).pageToken = .ok url := hurl
    have hread : readPage server (stateOf pages urls) ((stateOf pages urls).requested ++ [url]) =
        .ok (objectsOf pages ++ items, some token) := hread
    rw [hurl]
    dsimp only
    rw [hread, ← stateOf_snoc]
    rfl

/-- The loop returns after a page without a token. -/
theorem answers_of_listTurn {pages : List Page} {urls : List Text} {found : List StoredObject}
    {requested : List Text} (h : (objectsOf pages).length ≤ inventoryLimit)
    (hturn : listTurn bucket server (stateOf pages urls) = .inr (.ok found, requested)) :
    ∃ url items, Answers bucket server pages urls url items none ∧
      found = objectsOf pages ++ items ∧ requested = urls ++ [url] := by
  rw [listTurn] at hturn
  cases hurl : listUrl bucket (stateOf pages urls).pageToken with
  | error e =>
    rw [hurl] at hturn
    cases hturn
  | ok url =>
    rw [hurl] at hturn
    dsimp only at hturn
    cases hread : readPage server (stateOf pages urls)
        ((stateOf pages urls).requested ++ [url]) with
    | error e =>
      rw [hread] at hturn
      cases hturn
    | ok r =>
      obtain ⟨found', next⟩ := r
      rw [hread] at hturn
      cases next with
      | some token => cases hturn
      | none =>
        cases hturn
        obtain ⟨data, items, hdata, hpage, -, rfl, -⟩ := (readPage_eq_ok_iff h).mp hread
        exact ⟨url, items, ⟨hurl, data, hdata, hpage⟩, rfl, rfl⟩

/-! ### Addresses -/

omit [IsoDates] [DecimalDigits] in
/-- The address of a page determines its token. -/
theorem listUrl_inj {a b : Option Text} {url : Text} (ha : listUrl bucket a = .ok url)
    (hb : listUrl bucket b = .ok url) : a = b := by
  have hlonger : ∀ {token : Text}, listUrl bucket none ≠ listUrl bucket (some token) := by
    intro token h
    obtain ⟨quoted, -, hq⟩ := bind_eq_ok.mp h.symm
    have hlen := congrArg List.length (Except.ok.inj hq)
    simp only [List.length_append] at hlen
    have hpos : 0 < (Text.ofString "&pageToken=").length := by decide
    omega
  cases a with
  | none =>
    cases b with
    | none => rfl
    | some token => exact (hlonger (ha.trans hb.symm)).elim
  | some token =>
    cases b with
    | none => exact (hlonger (hb.trans ha.symm)).elim
    | some token' =>
      obtain ⟨quoted, hquoted, hurl⟩ := bind_eq_ok.mp ha
      obtain ⟨quoted', hquoted', hurl'⟩ := bind_eq_ok.mp hb
      have hsame := List.append_cancel_left
        ((Except.ok.inj hurl).trans (Except.ok.inj hurl').symm)
      rw [hsame] at hquoted
      rw [urlQuote_inj hquoted hquoted']

-- The tokens that were sent for some pages and for the page after them.
private def sent (pages : List Page) : List (Option Text) :=
  none :: pages.map fun page ↦ some page.2

omit [IsoDates] [DecimalDigits] in
private theorem sent_eq_append (pages : List Page) :
    sent pages = (sent pages).dropLast ++ [lastToken pages] := by
  induction pages using List.reverseRecOn with
  | nil => rfl
  | append_singleton pages page _ =>
    have hsent : sent (pages ++ [page]) = sent pages ++ [some page.2] := by simp [sent]
    rw [hsent, List.dropLast_concat]
    simp [lastToken]

private theorem forall₂_sent {pages : List Page} {urls : List Text}
    (h : Pages bucket server pages urls) :
    List.Forall₂ (fun token url ↦ listUrl bucket token = .ok url) (sent pages).dropLast urls := by
  induction h with
  | nil => exact .nil
  | @snoc pages urls url items token _ hpage _ ih =>
    have hsent : (sent (pages ++ [(items, token)])).dropLast = sent pages := by
      have happend : sent (pages ++ [(items, token)]) = sent pages ++ [some token] := by simp [sent]
      rw [happend, List.dropLast_concat]
    rw [hsent, sent_eq_append]
    exact List.rel_append ih (.cons hpage.address .nil)

private theorem nodup_tokens {pages : List Page} {urls : List Text}
    (h : Pages bucket server pages urls) : (pages.map Prod.snd).Nodup := by
  induction h with
  | nil => exact List.nodup_nil
  | @snoc pages urls url items token _ _ hfresh ih =>
    rw [List.map_append, List.map_singleton]
    exact (List.perm_append_singleton token _).nodup_iff.mpr (List.nodup_cons.mpr ⟨hfresh, ih⟩)

omit [IsoDates] [DecimalDigits] in
private theorem nodup_of_forall₂ {tokens : List (Option Text)} {urls : List Text}
    (h : List.Forall₂ (fun token url ↦ listUrl bucket token = .ok url) tokens urls)
    (hn : tokens.Nodup) : urls.Nodup := by
  induction h with
  | nil => exact List.nodup_nil
  | @cons token url tokens urls hurl hrest ih =>
    obtain ⟨hnew, hn⟩ := List.nodup_cons.mp hn
    refine List.nodup_cons.mpr ⟨fun hmem ↦ ?_, ih hn⟩
    obtain ⟨token', htoken', hurl'⟩ := exists_partner (List.Forall₂.flip hrest) hmem
    rw [listUrl_inj hurl hurl'] at hnew
    exact hnew htoken'

/-- No page of an inventory was requested twice. -/
theorem nodup_requested {pages : List Page} {urls : List Text} {url : Text}
    {items : List StoredObject} {next : Option Text} (h : Pages bucket server pages urls)
    (hpage : Answers bucket server pages urls url items next) : (urls ++ [url]).Nodup := by
  have hsent : (sent pages).Nodup := by
    rw [sent, List.nodup_cons]
    constructor
    · intro hmem
      obtain ⟨page, -, hpage⟩ := List.mem_map.mp hmem
      cases hpage
    · have hmap : (pages.map fun page ↦ some page.2) = (pages.map Prod.snd).map some := by
        rw [List.map_map]
        rfl
      rw [hmap]
      exact (nodup_tokens h).map (Option.some_injective Text)
  have hall : List.Forall₂ (fun token url ↦ listUrl bucket token = .ok url) (sent pages)
      (urls ++ [url]) := by
    rw [sent_eq_append]
    exact List.rel_append (forall₂_sent h) (.cons hpage.address .nil)
  exact nodup_of_forall₂ hall hsent

/-! ### The whole loop -/

omit [IsoDates] [DecimalDigits] in
private theorem length_objectsOf_le (pages : List Page) (page : Page) :
    (objectsOf pages).length ≤ (objectsOf (pages ++ [page])).length := by
  simp [objectsOf]

/-- The loop passes through the pages that the server has. -/
theorem loopFor_stateOf {pages : List Page} {urls : List Text} (h : Pages bucket server pages urls)
    (hle : (objectsOf pages).length ≤ inventoryLimit) (n : Nat) :
    loopFor (listTurn bucket server) (pages.length + n) {} =
      loopFor (listTurn bucket server) n (stateOf pages urls) := by
  induction h generalizing n with
  | nil => rw [List.length_nil, Nat.zero_add]; rfl
  | @snoc pages urls url items token _ hpage hfresh ih =>
    have hshort := (length_objectsOf_le pages (items, token)).trans hle
    have hturn := (listTurn_eq_inl_iff hshort).mpr ⟨url, items, token, hpage, hfresh, hle, rfl⟩
    rw [List.length_append, List.length_singleton, Nat.add_assoc, Nat.add_comm 1 n,
      ih hshort (n + 1), loopFor_succ_of_inl hturn]

/-- A state of the loop: the pages so far, and few objects. -/
def Reached (bucket : Text) (server : Server) (s : Listing) : Prop :=
  ∃ pages urls, Pages bucket server pages urls ∧
    (objectsOf pages).length ≤ inventoryLimit ∧ s = stateOf pages urls

private theorem reached_turn {s t : Listing} (hs : Reached bucket server s)
    (h : listTurn bucket server s = .inl t) : Reached bucket server t := by
  obtain ⟨pages, urls, hpages, hle, rfl⟩ := hs
  obtain ⟨url, items, token, hpage, hfresh, hle', rfl⟩ := (listTurn_eq_inl_iff hle).mp h
  exact ⟨_, _, .snoc hpages hpage hfresh, hle', rfl⟩

private theorem reached_start : Reached bucket server {} :=
  ⟨[], [], .nil, Nat.zero_le _, rfl⟩

/-- What is returned is an inventory. -/
theorem inventory_of_listAll {n : Nat} {found : List StoredObject} {requested : List Text}
    (h : listAll bucket server n = some (.ok found, requested)) :
    Inventory bucket server found requested := by
  obtain ⟨t, ⟨pages, urls, hpages, hle, rfl⟩, hturn⟩ :=
    exists_last_turn (fun _ _ ↦ reached_turn) reached_start h
  obtain ⟨url, items, hpage, hfound, rfl⟩ := answers_of_listTurn hle hturn
  exact ⟨⟨pages, urls, url, items, hpages, hpage, hfound, rfl⟩, nodup_requested hpages hpage⟩

/-- Pages without end keep the loop running. -/
theorem listAll_eq_none (h : PagesWithoutEnd bucket server) (n : Nat) :
    listAll bucket server n = none := by
  obtain ⟨page, hpage⟩ := h
  obtain ⟨⟨urls, hpages⟩, hle⟩ := hpage n
  have hloop := loopFor_stateOf hpages hle 0
  rw [List.length_map, List.length_range, Nat.add_zero] at hloop
  rw [listAll, hloop]
  rfl

private theorem pagesWithoutEnd_of_not_loopHalts
    (h : ¬ LoopHalts (listTurn bucket server) {}) : PagesWithoutEnd bucket server := by
  obtain ⟨state, hstart, hturn⟩ := exists_states_of_not_loopHalts h
  -- a page is what a turn added to the objects, and the token it left
  let page : Nat → Page := fun n ↦
    ((state (n + 1)).found.drop (state n).found.length, (state (n + 1)).pageToken.getD [])
  have hall : ∀ n, ∃ urls, Pages bucket server ((List.range n).map page) urls ∧
      (objectsOf ((List.range n).map page)).length ≤ inventoryLimit ∧
      state n = stateOf ((List.range n).map page) urls := by
    intro n
    induction n with
    | zero => exact ⟨[], .nil, Nat.zero_le _, hstart⟩
    | succ n ih =>
      obtain ⟨urls, hpages, hle, hstate⟩ := ih
      have hn := hturn n
      rw [hstate] at hn
      obtain ⟨url, items, token, hpage, hfresh, hle', hnext⟩ := (listTurn_eq_inl_iff hle).mp hn
      have hadded : page n = (items, token) := by
        simp only [page]
        rw [hnext, hstate]
        simp [stateOf, objectsOf, lastToken]
      rw [List.range_succ, List.map_append, List.map_singleton, hadded]
      exact ⟨urls ++ [url], .snoc hpages hpage hfresh, hle', hnext⟩
  refine ⟨page, fun n ↦ ?_⟩
  obtain ⟨urls, hpages, hle, -⟩ := hall n
  exact ⟨⟨urls, hpages⟩, hle⟩

/-- Listing ends with an inventory or an exception, unless the pages never end. -/
theorem listsInventory_iff (bucket : Text) (server : Server) :
    ListsInventory bucket server ↔ ¬ PagesWithoutEnd bucket server := by
  constructor
  · rintro ⟨⟨n, outcome, hends⟩, -⟩ hendless
    rw [listAll_eq_none hendless n] at hends
    cases hends
  · intro h
    refine ⟨?_, fun n found requested ↦ inventory_of_listAll⟩
    by_contra hnot
    exact h (pagesWithoutEnd_of_not_loopHalts hnot)

end Paging

/-! ### Empty pages with new tokens -/

/-- The decimal digits of ASCII. -/
@[reducible] def DecimalDigits.ascii : DecimalDigits where
  digit c := if isDigit c then some (c.val - 48) else none

/-- Texts that are no dates. -/
@[reducible] def IsoDates.none : IsoDates where
  Parsed := DateTime
  fromisoformat _ := .error (valueError "Invalid isoformat string")
  hasOffset _ := true
  astimezoneUtc moment := .ok moment

/-- A server with empty pages: the tokens are `1`, `11`, `111` and so on. -/
def onesServer : Server := fun requested ↦
  .ok (.obj [("items", .arr []), ("nextPageToken", .str (List.replicate requested.length 49))])

section Ones

attribute [local instance] DecimalDigits.ascii IsoDates.none

private theorem exists_listUrl_ones (bucket : Text) (n : Nat) :
    ∃ url, listUrl bucket (some (List.replicate n 49)) = .ok url := by
  have hscalar : Text.IsScalar (List.replicate n 49) := by
    intro c hc
    rw [List.eq_of_mem_replicate hc]
    decide
  obtain ⟨bytes, hbytes⟩ := Text.exists_encodeUtf8_iff.mpr hscalar
  rw [listUrl, urlQuote, hbytes]
  exact ⟨_, rfl⟩

private theorem isPage_ones (n : Nat) : IsPage
    (.obj [("items", .arr []), ("nextPageToken", .str (List.replicate (n + 1) 49))]) []
    (some (List.replicate (n + 1) 49)) where
  isObject := ⟨_, rfl⟩
  items := ⟨[], rfl, .nil⟩
  next := rfl

private theorem pages_ones (bucket : Text) (n : Nat) :
    ∃ urls, urls.length = n ∧ Pages bucket onesServer
      ((List.range n).map fun i ↦ ([], List.replicate (i + 1) 49)) urls := by
  induction n with
  | zero => exact ⟨[], rfl, .nil⟩
  | succ n ih =>
    obtain ⟨urls, hlength, hpages⟩ := ih
    obtain ⟨url, hurl⟩ : ∃ url, listUrl bucket (lastToken
        ((List.range n).map fun i ↦ ([], List.replicate (i + 1) 49))) = .ok url := by
      cases n with
      | zero => exact ⟨_, rfl⟩
      | succ n =>
        rw [lastToken, List.range_succ, List.map_append, List.map_singleton,
          List.getLast?_concat]
        exact exists_listUrl_ones bucket (n + 1)
    rw [List.range_succ, List.map_append, List.map_singleton]
    refine ⟨urls ++ [url], by simp [hlength], .snoc hpages ⟨hurl, _, rfl, ?_⟩ ?_⟩
    · rw [List.length_append, List.length_singleton, hlength]
      exact isPage_ones n
    · intro hmem
      rw [List.map_map, List.mem_map] at hmem
      obtain ⟨i, hi, htoken⟩ := hmem
      have hlen := congrArg List.length htoken
      simp only [Function.comp_apply, List.length_replicate] at hlen
      have := List.mem_range.mp hi
      omega

/-- Empty pages with new tokens are listed for ever. -/
theorem not_listsInventory_ones :
    ¬ ListsInventory "colomboai-c3r-staging-traces-123456789012" onesServer := by
  rintro ⟨⟨n, outcome, hends⟩, -⟩
  have hendless : PagesWithoutEnd "colomboai-c3r-staging-traces-123456789012" onesServer := by
    refine ⟨fun i ↦ ([], List.replicate (i + 1) 49), fun n ↦ ⟨?_, ?_⟩⟩
    · obtain ⟨urls, -, hpages⟩ := pages_ones "colomboai-c3r-staging-traces-123456789012" n
      exact ⟨urls, hpages⟩
    · have hnone : objectsOf ((List.range n).map fun i ↦ ([], List.replicate (i + 1) 49)) = [] := by
        rw [objectsOf, List.flatMap_map, List.flatMap_eq_nil_iff]
        exact fun _ _ ↦ rfl
      rw [hnone]
      exact Nat.zero_le _
  rw [listAll_eq_none hendless n] at hends
  cases hends

end Ones

end C3RSpec.Retention
