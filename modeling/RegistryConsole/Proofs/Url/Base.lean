import RegistryConsole.Proofs.Url.Server

/-! # Plain paths below an address

An address of the web that has neither a query nor a fragment can have any path put below its own.
A plain path and a plain query are read as they are, after the address's own path, and they can be
called if that path can. The server, the user and the port are always those of the address. -/

namespace RegistryConsole

namespace Url

/-! ## Bases -/

/-- Whether any path can be put below an address, and `root` is the URL of the empty one. -/
structure IsBase (address : String) (root : Url) : Prop where
  read : ofText (address ++ "/") = .ok root
  query : root.query = none
  fragment : root.fragment = none
  callable : root.IsCallable

/-- The path of a URL up to its last slash. -/
def basePath (root : Url) : List Char :=
  root.path.text.dropLast

/-- The URL of a path and a query below the path of a URL. -/
def below (root : Url) (path : List Char) (query : Option (List Char)) : Url :=
  match root.path with
  | .segments parts => root.withTarget (.segments (parts.dropLast ++ path.splitOn '/')) query
  | .plain _ => root

/-- The text of a query is told by the query alone. -/
theorem queryText_withTarget (u : Url) (path : UrlPath) (query : Option (List Char)) :
    (u.withTarget path query).queryText = (query.map ('?' :: ·)).getD [] := by
  cases query <;> rfl

namespace IsBase

variable {address : String} {root : Url} {path : List Char} {query : Option (List Char)}

/-- Everything that is plain is put below the same segments. -/
theorem exists_parts (h : IsBase address root) :
    ∃ parts : List (List Char), (∀ part ∈ parts, ∀ c ∈ part, IsPlainChar c) ∧
      root.path = .segments (parts ++ [[]]) ∧
      ∀ {path : List Char} {query : Option (List Char)}, IsPlainPath path →
        (∀ q ∈ query, IsPlainQuery q) →
        ofText (address ++ "/" ++ String.ofList (path ++ (query.map ('?' :: ·)).getD [])) =
          .ok (root.withTarget (.segments (parts ++ path.splitOn '/')) query) := by
  have hread := h.read
  rw [← String.append_empty (s := address ++ "/"), ← String.ofList_nil,
    ← List.replicate_zero (a := '/')] at hread
  obtain ⟨server, after, hserves, hroot⟩ := servesBelow_of_ok hread h.callable.http
  have hafter : ∀ c ∈ after, isInPath c = true := by
    have hquery : (server.withPath (after ++ ['/'])).query = none := hroot ▸ h.query
    have hfragment : (server.withPath (after ++ ['/'])).fragment = none := hroot ▸ h.fragment
    have hkept := isInPath_of_withPath hserves.special hquery hfragment
    exact fun c hc => hkept c (List.mem_append_left _ hc)
  obtain ⟨parts, hparts, hbelow⟩ := exists_withPath_eq hserves.special hserves.ends hafter
  have hwhole : root = server.withTarget (.segments (parts ++ [[]])) none := by
    have hempty : pushSegments parts (readSegments []) = parts ++ [[]] :=
      pushSegments_eq_append (by decide)
    have hnothing := hbelow [] [] (by simp) (by simp)
    rw [hempty] at hnothing
    rw [hroot, withTarget, ← hserves.query]
    exact hnothing
  refine ⟨parts, hparts, congrArg Url.path hwhole, ?_⟩
  intro path query hpath hquery
  have hlarge : ∀ c ∈ path ++ (server.withTarget (.segments []) query).queryText,
      0x20 < c.toNat := by
    intro c hc
    rcases List.mem_append.1 hc with hc | hc
    · exact (lt_of_isPlainChar (hpath.1 c hc)).1
    · exact lt_of_mem_queryText hquery hc
  have hsegments : pushSegments parts (readSegments path) = parts ++ path.splitOn '/' := by
    rw [readSegments_eq_splitOn hpath.1, pushSegments_eq_append hpath.2]
  rw [← queryText_withTarget server (.segments []), hserves.read, String.toList_ofList,
    keptEnd_eq_self hlarge, hbelow path _ (fun c hc => (lt_of_isPlainChar (hpath.1 c hc)).2)
      (fun c hc => isInPath_of_mem_head?_queryText hc), hsegments, hwhole]
  exact congrArg Except.ok (withEnd_queryText hserves.special hserves.query _ hquery)

/-- What is put below an address, in its parts. -/
theorem exists_below_eq (h : IsBase address root) :
    ∃ parts : List (List Char), (∀ part ∈ parts, ∀ c ∈ part, IsPlainChar c) ∧
      root.path.text = pathText parts ++ ['/'] ∧ root.basePath = pathText parts ∧
      ∀ path query, root.below path query =
        root.withTarget (.segments (parts ++ path.splitOn '/')) query := by
  obtain ⟨parts, hparts, hpath, -⟩ := h.exists_parts
  have htext : root.path.text = pathText parts ++ ['/'] := by
    rw [hpath]
    show pathText (parts ++ [[]]) = _
    rw [pathText_append]
    rfl
  refine ⟨parts, hparts, htext, ?_, fun path query => ?_⟩
  · rw [basePath, htext, List.dropLast_concat]
  · rw [below, hpath]
    dsimp only
    rw [List.dropLast_concat]

/-- A plain path and a plain query are read below the path of the address. -/
theorem ofText_below (h : IsBase address root) (hpath : IsPlainPath path)
    (hquery : ∀ q ∈ query, IsPlainQuery q) :
    ofText (address ++ "/" ++ String.ofList (path ++ (query.map ('?' :: ·)).getD [])) =
      .ok (root.below path query) := by
  obtain ⟨parts, -, hroot, hread⟩ := h.exists_parts
  rw [hread hpath hquery, below, hroot]
  dsimp only
  rw [List.dropLast_concat]

/-- The path of what is below is that of the address, a slash and the path below. -/
theorem text_path_below (h : IsBase address root) (path : List Char)
    (query : Option (List Char)) :
    (root.below path query).path.text = root.basePath ++ '/' :: path := by
  obtain ⟨parts, -, -, hbase, hbelow⟩ := h.exists_below_eq
  rw [hbelow, hbase]
  show pathText (parts ++ path.splitOn '/') = _
  rw [pathText_append, pathText_splitOn]

/-- What is asked for below an address: its path, the path below, and the query. -/
theorem target_below (h : IsBase address root) (path : List Char) (query : Option (List Char)) :
    (root.below path query).target =
      root.basePath ++ '/' :: (path ++ (query.map ('?' :: ·)).getD []) := by
  have htext := h.text_path_below path query
  obtain ⟨parts, -, -, -, hbelow⟩ := h.exists_below_eq
  have hquery : (root.below path query).queryText = (query.map ('?' :: ·)).getD [] := by
    rw [hbelow, queryText_withTarget]
  rw [target, htext, hquery, List.append_assoc, List.cons_append]

/-- A plain path below an address is plain as a whole, and starts with a slash. -/
theorem exists_text_path_below (h : IsBase address root) (hpath : ∀ c ∈ path, IsPlainChar c)
    (query : Option (List Char)) :
    (∀ c ∈ (root.below path query).path.text, IsPlainChar c) ∧
      ∃ cs, (root.below path query).path.text = '/' :: cs := by
  have htext := h.text_path_below path query
  obtain ⟨parts, hparts, -, hbase, -⟩ := h.exists_below_eq
  rw [htext, hbase]
  refine ⟨List.forall_mem_append.2 ⟨fun c hc => isPlainChar_of_mem_pathText hparts hc,
    List.forall_mem_cons.2 ⟨by decide, hpath⟩⟩, ?_⟩
  cases parts with
  | nil => exact ⟨path, rfl⟩
  | cons part parts => exact ⟨part ++ pathText parts ++ '/' :: path, by simp⟩

/-- The server is that of the address. -/
theorem server_below (h : IsBase address root) (path : List Char) (query : Option (List Char)) :
    (root.below path query).scheme = root.scheme ∧
      (root.below path query).origin = root.origin ∧ (root.below path query).query = query := by
  obtain ⟨parts, -, -, -, hbelow⟩ := h.exists_below_eq
  rw [hbelow]
  exact ⟨rfl, rfl, rfl⟩

section

variable (h : IsBase address root) (hfits : (root.below path query).Fits)

include h hfits

/-- What is asked for is no longer than the whole URL. -/
theorem length_target_below :
    (Utf8.encode (root.below path query).target).length ≤ RequestTarget.maxLength := by
  obtain ⟨parts, -, -, -, hbelow⟩ := h.exists_below_eq
  rw [hbelow] at hfits ⊢
  exact length_target_le h.callable h.fragment hfits

/-- A plain path can be called below an address, with a plain query, unless the URL gets too
long. -/
theorem isCallable_below (hpath : ∀ c ∈ path, IsPlainChar c)
    (hquery : ∀ q ∈ query, IsPlainQuery q) : (root.below path query).IsCallable := by
  have hstays := staysInAuthority_sentUrl (staysInAuthority_of_ofText h.read h.callable.http)
  have hroot : ∃ own, root.path.text = '/' :: own := by
    obtain ⟨parts, -, hown, -, -⟩ := h.exists_below_eq
    rw [hown]
    cases parts with
    | nil => exact ⟨[], rfl⟩
    | cons part parts => exact ⟨part ++ pathText parts ++ ['/'], by simp⟩
  obtain ⟨own, hown⟩ := hroot
  obtain ⟨hplain, cs, hcs⟩ := h.exists_text_path_below hpath query
  obtain ⟨parts, -, -, -, hbelow⟩ := h.exists_below_eq
  rw [hbelow] at hfits hplain hcs ⊢
  exact isCallable_withTarget h.callable h.fragment hstays hown hcs hplain hquery hfits

end

end IsBase

end Url

end RegistryConsole
