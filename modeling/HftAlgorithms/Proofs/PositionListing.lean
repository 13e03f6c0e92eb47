/-
Module: HftAlgorithms.Proofs.PositionListing
Purpose: The positions that the ETF client reads out of the listing of the service.  The
  loop walks over quotes, colons and commas; a ticker may hold colons and commas, since
  the search for the colon goes on at the quote that ends it.
Trusted boundary: none
Main exports: entryText, entriesText, listingText, parseEntries_entry,
  parseEntries_entriesText, positionsOf_listingText, ETFClient.getPositions_listing
-/
import HftAlgorithms.Lib.JsonText
import HftAlgorithms.Proofs.HttpStatus

namespace HftAlgorithms

open DecimalText JsonText TextSearch

/-! ### The listing -/

/-- `"TICKER":value` -/
def entryText (entry : List Char × Int32) : List Char :=
  '"' :: (entry.1 ++ '"' :: ':' :: toText entry.2.toInt)

def entriesText (entries : List (List Char × Int32)) : List Char :=
  [','].intercalate (entries.map entryText)

/-- `\x7b"client_id":8,"positions":\x7b"GOLD":7,"BLUE":4\x7d\x7d`, as a text. -/
def listingText (clientId : Int32) (entries : List (List Char × Int32)) : List Char :=
  "\x7b\"client_id\":".toList ++ toText clientId.toInt ++ ",\"positions\":\x7b".toList ++
    entriesText entries ++ "\x7d\x7d".toList

/-! ### One entry -/

/-- One turn of the loop, over what its searches find. -/
theorem parseEntries_of_find {block : List Char} {i q1 q2 colon : Nat} {value : Int32}
    (inside : i < block.length) (tickerStart : find ['"'] block i = some q1)
    (tickerEnd : find ['"'] block (q1 + 1) = some q2)
    (valueStart : find [':'] block q2 = some colon)
    (read : stoi (block.drop (colon + 1)) = .ok value)
    (positions : FiniteMap (List Char) Int32) :
    parseEntries block i positions =
      match find [','] block colon with
      | none => .ok (positions.insert (substr block (q1 + 1) (q2 - q1 - 1)) value)
      | some comma =>
          parseEntries block (comma + 1)
            (positions.insert (substr block (q1 + 1) (q2 - q1 - 1)) value) := by
  rw [parseEntries, if_pos inside]
  split
  · rename_i absent
    rw [tickerStart] at absent
    cases absent
  · rename_i found
    rw [tickerStart] at found
    cases found
    split
    · rename_i absent
      rw [tickerEnd] at absent
      cases absent
    · rename_i found
      rw [tickerEnd] at found
      cases found
      simp only
      split
      · rename_i absent
        rw [valueStart] at absent
        cases absent
      · rename_i found
        rw [valueStart] at found
        cases found
        simp only [read]
        split
        · rename_i absent
          rw [absent]
        · rename_i found
          rw [found]

section Entry

variable {ticker : List Char} {value : Int32} {front rest : List Char}

theorem find_tickerStart :
    find ['"'] (front ++ (entryText (ticker, value) ++ rest)) front.length =
      some front.length := by
  apply @find_item _ _ _ front [] (ticker ++ '"' :: ':' :: (toText value.toInt ++ rest))
  · simp [entryText]
  · rfl
  · simp

theorem find_tickerEnd (noQuote : '"' ∉ ticker) :
    find ['"'] (front ++ (entryText (ticker, value) ++ rest)) (front.length + 1) =
      some (front.length + 1 + ticker.length) := by
  apply @find_item _ _ _ (front ++ ['"']) ticker (':' :: (toText value.toInt ++ rest))
  · simp [entryText]
  · simp
  · exact noQuote

/-- The search for the colon starts behind the ticker. -/
theorem find_valueStart :
    find [':'] (front ++ (entryText (ticker, value) ++ rest)) (front.length + 1 + ticker.length) =
      some (front.length + 1 + ticker.length + 1) := by
  apply @find_item _ _ _ (front ++ '"' :: ticker) ['"'] (toText value.toInt ++ rest)
  · simp [entryText]
  · simp
    omega
  · simp

theorem substr_ticker :
    substr (front ++ (entryText (ticker, value) ++ rest)) (front.length + 1)
      (front.length + 1 + ticker.length - front.length - 1) = ticker := by
  have cut := substr_append (front ++ ['"']) ticker ('"' :: ':' :: (toText value.toInt ++ rest))
  have length : front.length + 1 + ticker.length - front.length - 1 = ticker.length := by omega
  rw [length]
  simpa [entryText] using cut

theorem stoi_value (ends : NoDigit rest) :
    stoi ((front ++ (entryText (ticker, value) ++ rest)).drop
      (front.length + 1 + ticker.length + 1 + 1)) = .ok value := by
  have whole : front ++ (entryText (ticker, value) ++ rest) =
      front ++ (('"' :: (ticker ++ ['"', ':'])) ++ (toText value.toInt ++ rest)) := by
    simp [entryText]
  have length : front.length + 1 + ticker.length + 1 + 1 =
      front.length + ('"' :: (ticker ++ ['"', ':'])).length := by
    simp
    omega
  rw [whole, length, drop_append_append]
  exact stoi_toText value ends

/-- The comma that is looked for is not within the ticker: the search starts at the colon. -/
theorem find_nextEntry :
    find [','] (front ++ (entryText (ticker, value) ++ ',' :: rest))
        (front.length + 1 + ticker.length + 1) =
      some (front ++ entryText (ticker, value)).length := by
  have number : ',' ∉ ':' :: toText value.toInt := by
    simp [notMem_toText]
  have found := @find_item _ _ (front ++ (entryText (ticker, value) ++ ',' :: rest))
    (front ++ '"' :: (ticker ++ ['"'])) (':' :: toText value.toInt) rest ','
    (front.length + 1 + ticker.length + 1) (by simp [entryText]) (by simp; omega) number
  rw [found]
  simp [entryText]
  omega

theorem find_nextEntry_eq_none :
    find [','] (front ++ (entryText (ticker, value) ++ []))
      (front.length + 1 + ticker.length + 1) = none := by
  have number : ',' ∉ ':' :: toText value.toInt := by
    simp [notMem_toText]
  apply @find_item_eq_none _ _ _ (front ++ '"' :: (ticker ++ ['"'])) (':' :: toText value.toInt)
  · simp [entryText]
  · simp
    omega
  · exact number

theorem front_lt_block :
    front.length < (front ++ (entryText (ticker, value) ++ rest)).length := by
  simp [entryText]

/-- One turn of the loop reads one entry. -/
theorem parseEntries_entry (noQuote : '"' ∉ ticker) (ends : NoDigit rest)
    (positions : FiniteMap (List Char) Int32) :
    parseEntries (front ++ (entryText (ticker, value) ++ rest)) front.length positions =
      match find [','] (front ++ (entryText (ticker, value) ++ rest))
        (front.length + 1 + ticker.length + 1) with
      | none => .ok (positions.insert ticker value)
      | some comma =>
          parseEntries (front ++ (entryText (ticker, value) ++ rest)) (comma + 1)
            (positions.insert ticker value) := by
  rw [parseEntries_of_find front_lt_block find_tickerStart (find_tickerEnd noQuote)
    find_valueStart (stoi_value ends), substr_ticker]

theorem parseEntries_last (noQuote : '"' ∉ ticker) (positions : FiniteMap (List Char) Int32) :
    parseEntries (front ++ (entryText (ticker, value) ++ [])) front.length positions =
      .ok (positions.insert ticker value) := by
  have ends : NoDigit [] := by simp [NoDigit]
  rw [parseEntries_entry noQuote ends, find_nextEntry_eq_none]

/-- Behind a comma the loop goes on. -/
theorem parseEntries_more (noQuote : '"' ∉ ticker) (positions : FiniteMap (List Char) Int32) :
    parseEntries (front ++ (entryText (ticker, value) ++ ',' :: rest)) front.length positions =
      parseEntries ((front ++ entryText (ticker, value) ++ [',']) ++ rest)
        (front ++ entryText (ticker, value) ++ [',']).length (positions.insert ticker value) := by
  have ends : NoDigit (',' :: rest) := by simp [NoDigit]
  have same : front ++ entryText (ticker, value) ++ [','] ++ rest =
      front ++ (entryText (ticker, value) ++ ',' :: rest) := by
    simp
  rw [parseEntries_entry noQuote ends, find_nextEntry, same,
    @List.length_append _ (front ++ entryText (ticker, value)) [',']]
  rfl

end Entry

/-! ### The whole listing -/

theorem entriesText_cons_cons (entry next : List Char × Int32)
    (entries : List (List Char × Int32)) :
    entriesText (entry :: next :: entries) =
      entryText entry ++ ',' :: entriesText (next :: entries) := by
  simp [entriesText, List.intercalate_cons_cons]

theorem parseEntries_entriesText {entries : List (List Char × Int32)}
    (noQuote : ∀ entry ∈ entries, '"' ∉ entry.1) (front : List Char)
    (positions : FiniteMap (List Char) Int32) :
    parseEntries (front ++ entriesText entries) front.length positions =
      .ok (entries.foldl (fun map entry => map.insert entry.1 entry.2) positions) := by
  induction entries generalizing front positions with
  | nil =>
      have ended : ¬ front.length < (front ++ entriesText []).length := by
        simp [entriesText]
      rw [parseEntries, if_neg ended]
      rfl
  | cons entry entries inductionHypothesis =>
      obtain ⟨ticker, value⟩ := entry
      have here := noQuote _ List.mem_cons_self
      cases entries with
      | nil =>
          have last := @parseEntries_last ticker value front here positions
          simpa [entriesText] using last
      | cons next entries =>
          have later := inductionHypothesis
            (fun other member => noQuote other (List.mem_cons_of_mem _ member))
            (front ++ entryText (ticker, value) ++ [',']) (positions.insert ticker value)
          have more := @parseEntries_more ticker value front (entriesText (next :: entries)) here
            positions
          rw [entriesText_cons_cons, more, later]
          rfl

theorem brace_notMem_entriesText {entries : List (List Char × Int32)}
    (noBrace : ∀ entry ∈ entries, '\x7d' ∉ entry.1) : '\x7d' ∉ entriesText entries := by
  induction entries with
  | nil => simp [entriesText]
  | cons entry entries inductionHypothesis =>
      have here := noBrace _ List.mem_cons_self
      have first : '\x7d' ∉ entryText entry := by
        simp [entryText, here, notMem_toText]
      have later := inductionHypothesis
        fun other member => noBrace other (List.mem_cons_of_mem _ member)
      cases entries with
      | nil => simpa [entriesText] using first
      | cons next entries => simp [entriesText_cons_cons, first, later]

/-- From the brace to the key of the positions. -/
def listingHead (clientId : Int32) : List Char :=
  "\x7b\"client_id\":".toList ++ toText clientId.toInt ++ ",".toList

theorem listingText_eq (clientId : Int32) (entries : List (List Char × Int32)) :
    listingText clientId entries = listingHead clientId ++ ("\"positions\":".toList ++
      '\x7b' :: (entriesText entries ++ ['\x7d', '\x7d'])) := by
  unfold listingText listingHead
  simp

theorem find_positions (clientId : Int32) (entries : List (List Char × Int32)) :
    find "\"positions\":".toList (listingText clientId entries) 0 =
      some (listingHead clientId).length := by
  have number : ∀ rest, Skips (keyText "positions".toList []) (toText clientId.toInt) rest := by
    intro rest
    apply skips_of_notMem
    simp [notMem_toText]
  have skipped : ∀ rest, Skips (keyText "positions".toList []) (listingHead clientId) rest := by
    intro rest
    unfold listingHead
    rw [skips_append, skips_append]
    refine ⟨⟨by simp, number _⟩, by simp⟩
  rw [listingText_eq]
  exact find_zero_of_skips (skipped _) (List.prefix_append (keyText "positions".toList []) _)

theorem positionsOf_listingText {response : HttpResponse} {clientId : Int32}
    {entries : List (List Char × Int32)} (body : response.body = listingText clientId entries)
    (plain : ∀ entry ∈ entries, '"' ∉ entry.1 ∧ '\x7d' ∉ entry.1) :
    positionsOf response.text =
      .ok (entries.foldl (fun map entry => map.insert entry.1 entry.2) ∅) := by
  have noBrace := brace_notMem_entriesText fun entry member => (plain entry member).2
  have start : find ['\x7b'] (listingText clientId entries) ((listingHead clientId).length + 12) =
      some ((listingHead clientId).length + 12) := by
    apply @find_item _ _ _ (listingHead clientId ++ "\"positions\":".toList) []
      (entriesText entries ++ ['\x7d', '\x7d'])
    · simp [listingText_eq]
    · simp
    · simp
  have stop : find ['\x7d'] (listingText clientId entries) ((listingHead clientId).length + 12) =
      some ((listingHead clientId).length + 12 + ((entriesText entries).length + 1)) := by
    apply @find_item _ _ _ (listingHead clientId ++ "\"positions\":".toList)
      ('\x7b' :: entriesText entries) ['\x7d']
    · simp [listingText_eq]
    · simp
    · simp [noBrace]
  have block : substr (listingText clientId entries) ((listingHead clientId).length + 12 + 1)
      ((listingHead clientId).length + 12 + ((entriesText entries).length + 1) -
        ((listingHead clientId).length + 12) - 1) = entriesText entries := by
    have cut := substr_append (listingHead clientId ++ "\"positions\":\x7b".toList)
      (entriesText entries) ['\x7d', '\x7d']
    have length : (listingHead clientId).length + 12 + ((entriesText entries).length + 1) -
        ((listingHead clientId).length + 12) - 1 = (entriesText entries).length := by
      omega
    rw [length]
    simpa [listingText_eq] using cut
  have read := parseEntries_entriesText (fun entry member => (plain entry member).1) [] ∅
  rw [positionsOf, extractBody_text, body]
  simp only [find_positions, start, stop, block]
  exact read

/-! ### The call -/

/-- A listing of the positions, in whichever order and pieces it comes, is read back. -/
theorem ETFClient.getPositions_listing (client : ETFClient) (clientId : Int32)
    {service : List Char → Option (ChunkedStream Char)}
    {positions : FiniteMap (List Char) Int32} {entries : List (List Char × Int32)}
    {stream : ChunkedStream Char} {response : HttpResponse}
    (lists : FiniteMap.Lists entries positions)
    (plain : ∀ entry ∈ entries, '"' ∉ entry.1 ∧ '\x7d' ∉ entry.1)
    (body : response.body = listingText clientId entries)
    (answers : service (client.positionsRequest clientId) = some stream)
    (arrives : stream.items = response.text) :
    client.getPositions service clientId = .ok positions := by
  rw [getPositions, answers, sendHttpRequest_some arrives, positionsOf_listingText body plain,
    lists.foldl_insert]

/-- A listing with a colon and a comma in a ticker, and a negative position. -/
def twoPositions : HttpResponse where
  status :=
    { major := ⟨1, by decide⟩, minor := ⟨0, by decide⟩, hundreds := ⟨2, by decide⟩
      tens := ⟨0, by decide⟩, ones := ⟨0, by decide⟩, reason := "OK".toList, inLine := by decide }
  headers := ["Connection: close".toList]
  body := listingText 8 [("GOLD".toList, 7), ("A:B,C".toList, -4)]
  headerLines := by simp [InLine]

theorem ETFClient.getPositions_twoPositions :
    (ETFClient.new "http://localhost:5000".toList "group8".toList "secret".toList).getPositions
        (fun _ => some ⟨[twoPositions.text], by simp [text_ne_nil]⟩) 8 =
      .ok ((Finmap.insert "GOLD".toList 7 ∅).insert "A:B,C".toList (-4)) := by
  have distinct : ([("GOLD".toList, (7 : Int32)), ("A:B,C".toList, -4)].map Prod.fst).Nodup := by
    simp
  apply @getPositions_listing _ 8 _ _ _ _ twoPositions (FiniteMap.lists_foldl_insert distinct)
  · simp
  · rfl
  · rfl
  · simp [ChunkedStream.items]

end HftAlgorithms
