import Haystack.Codecs.Json

/-!
# What decoding makes of what was encoded

Facts about both JSON codecs.  A layout is `Exact` for some values when what is
read back of a scalar, of a dictionary and of a grid is what was encoded, provided
that this holds of the values in it.  It is `Accepting` when they are read at
all, given the levels they take.  Whole values follow by induction.
-/

namespace Haystack
namespace Codecs
namespace Layout

open Collections

variable {layout : Layout}

/-! ## Encoders as fallible maps -/

theorem encodeDict_eq (tags : List (String × Kind)) :
    layout.encodeDict tags = tags.mapM (onValue layout.encodeKind) := by
  refine eq_mapM layout.encodeDict rfl (fun entry rest => ?_) tags
  rw [encodeDict, onValue]
  cases layout.encodeKind entry.2 <;> rfl

/-- Encode a column. -/
def encodeColumn (layout : Layout) (col : String × List (String × Kind)) :
    Except CodecError Json :=
  (layout.encodeDict col.2).map (layout.columnObj col.1)

/-- Encode a row. -/
def encodeRow (layout : Layout) (row : List (String × Kind)) :
    Except CodecError Json :=
  (layout.encodeDict row).map .ofFields

theorem encodeColumns_eq (cols : List (String × List (String × Kind))) :
    layout.encodeColumns cols = cols.mapM layout.encodeColumn := by
  refine eq_mapM layout.encodeColumns rfl (fun col rest => ?_) cols
  rw [encodeColumns, encodeColumn]
  cases layout.encodeDict col.2 <;> rfl

theorem encodeRows_eq (rows : List (List (String × Kind))) :
    layout.encodeRows rows = rows.mapM layout.encodeRow := by
  refine eq_mapM layout.encodeRows rfl (fun row rest => ?_) rows
  rw [encodeRows, encodeRow]
  cases layout.encodeDict row <;> rfl

variable {fields : List (String × Json)} {tags : List (String × Kind)}

/-- The fields of an encoded dictionary are in the order of its tags. -/
theorem keys_encodeDict (encoded : layout.encodeDict tags = .ok fields) :
    fields.map Prod.fst = tags.map Prod.fst := by
  rw [encodeDict_eq] at encoded
  exact keys_of_mapM_onValue encoded

theorem sorted_encodeDict (sorted : Assoc.Sorted tags)
    (encoded : layout.encodeDict tags = .ok fields) : Assoc.Sorted fields :=
  (Assoc.sorted_congr_keys (keys_encodeDict encoded)).mpr sorted

theorem ofList_encodeDict (sorted : Assoc.Sorted tags)
    (encoded : layout.encodeDict tags = .ok fields) : Assoc.ofList fields = fields :=
  Assoc.ofList_of_sorted (sorted_encodeDict sorted encoded)

variable {skip : String}

/-- The fields of an encoded dictionary do not have a tag it does not have. -/
theorem filter_encodeDict (absent : skip ∉ tags.map Prod.fst)
    (encoded : layout.encodeDict tags = .ok fields) :
    fields.filter (fun field => field.1 ≠ skip) = fields := by
  rw [List.filter_eq_self]
  intro field member
  have named : field.1 ∈ fields.map Prod.fst := List.mem_map_of_mem member
  rw [keys_encodeDict encoded] at named
  have different : field.1 ≠ skip := fun same => absent (same ▸ named)
  simpa using different

/-- The parts of an encoded grid. -/
structure EncodedGrid (layout : Layout) (grid : HGrid) (gridMeta : List (String × Json))
    (cols rows : List Json) : Prop where
  gridMeta : layout.encodeDict grid.gridMeta = .ok gridMeta
  cols : layout.encodeColumns grid.cols = .ok cols
  rows : layout.encodeRows grid.rows = .ok rows

variable {grid : HGrid}

theorem encodeGridValue_eq_ok (encoded : layout.encodeGridValue grid = .ok fields) :
    ∃ gridMeta cols rows, layout.EncodedGrid grid gridMeta cols rows ∧
      fields = layout.gridFields gridMeta cols rows := by
  obtain ⟨_, _, encoded⟩ := except_bind_eq_ok.mp encoded
  obtain ⟨gridMeta, metaEncoded, encoded⟩ := except_bind_eq_ok.mp encoded
  obtain ⟨cols, colsEncoded, encoded⟩ := except_bind_eq_ok.mp encoded
  obtain ⟨rows, rowsEncoded, same⟩ := except_bind_eq_ok.mp encoded
  exact ⟨gridMeta, cols, rows, ⟨metaEncoded, colsEncoded, rowsEncoded⟩, (Except.ok.inj same).symm⟩

variable {value : Kind}

/-- An object is decoded two levels above the end. -/
theorem decodeKindAt_object {room : Nat} {result : Kind} :
    layout.decodeKindAt room (.object fields) = .ok result ↔
      ∃ inner, room = inner + 2 ∧
        layout.decodeObject (layout.decodeKindAt inner) fields = .ok result := by
  match room with
  | 0 | 1 | inner + 2 => simp [decodeKindAt]

/-! ## Exactness -/

variable {holds : Kind → Prop}

section Exactness

variable {child : Json → Except CodecError Kind}

/-- The child decoder reads the values of a dictionary back. -/
def ReadsBack
    (layout : Layout) (child : Json → Except CodecError Kind)
    (tags : List (String × Kind)) : Prop :=
  ∀ entry ∈ tags, ∀ json, layout.encodeKind entry.2 = .ok json →
    ∀ result, child json = .ok result → result = entry.2

/-- The child decoder reads the values of a grid back. -/
structure ReadsGridBack (layout : Layout) (child : Json → Except CodecError Kind)
    (grid : HGrid) : Prop where
  gridMeta : layout.ReadsBack child grid.gridMeta
  cols : ∀ col ∈ grid.cols, layout.ReadsBack child col.2
  rows : ∀ row ∈ grid.rows, layout.ReadsBack child row

/-- What is read back of an encoded dictionary is the dictionary. -/
theorem eq_of_decodeEntries {results : List (String × Kind)} (sorted : Assoc.Sorted tags)
    (reads : layout.ReadsBack child tags) (encoded : layout.encodeDict tags = .ok fields)
    (decoded : decodeEntries child fields = .ok results) : results = tags := by
  obtain ⟨entries, read, rfl⟩ := except_map_eq_ok.mp decoded
  rw [encodeDict_eq] at encoded
  have same : entries = tags := by
    refine eq_of_forall₂_read (mapM_eq_ok.mp encoded) read ?_
    intro entry member field printed result readBack
    obtain ⟨printed, key⟩ := onValue_eq_ok.mp printed
    obtain ⟨readBack, sameKey⟩ := onValue_eq_ok.mp readBack
    have value := reads entry member field.2 printed result.2 readBack
    exact Prod.ext (sameKey.symm.trans key.symm) value
  rw [same, Assoc.ofList_of_sorted sorted]

theorem eq_of_decodeRow {row result : List (String × Kind)} {json : Json}
    (sorted : Assoc.Sorted row) (reads : layout.ReadsBack child row)
    (encoded : layout.encodeRow row = .ok json) (decoded : decodeRow child json = .ok result) :
    result = row := by
  obtain ⟨_, printed, rfl⟩ := except_map_eq_ok.mp encoded
  rw [Json.ofFields, ofList_encodeDict sorted printed] at decoded
  exact eq_of_decodeEntries sorted reads printed decoded

/-- Where the parts of an encoded grid are found in its fields. -/
structure GridParts (skip : String) (fields : List (String × Json))
    (gridMeta : List (String × Json)) (cols rows : List Json) : Prop where
  cols : Assoc.lookup "cols" fields = some (.array cols)
  rows : Assoc.lookup "rows" fields = some (.array rows)
  gridMeta : ∀ child, decodeGridMeta skip child (Assoc.lookup "meta" fields) =
    decodeEntries child gridMeta

/-- A grid is read back from its fields. -/
theorem eq_of_decodeGridFields {column : Json → Except CodecError (String × List (String × Kind))} {result : HGrid} {gridMeta : List (String × Json)}
    {cols rows : List Json} (form : grid.kind.OwnForm) (reads : layout.ReadsGridBack child grid)
    (encoded : layout.EncodedGrid grid gridMeta cols rows)
    (parts : GridParts skip fields gridMeta cols rows)
    (columnsRead : ∀ col ∈ grid.cols, ∀ json,
      layout.encodeColumn col = .ok json → ∀ result, column json = .ok result → result = col)
    (decoded : decodeGridFields skip child column fields = .ok result) : result = grid := by
  obtain ⟨readMeta, metaDecoded, decoded⟩ := except_bind_eq_ok.mp decoded
  obtain ⟨readCols, colsDecoded, decoded⟩ := except_bind_eq_ok.mp decoded
  obtain ⟨readRows, rowsDecoded, same⟩ := except_bind_eq_ok.mp decoded
  obtain rfl := Except.ok.inj same
  rw [parts.gridMeta] at metaDecoded
  rw [parts.cols] at colsDecoded
  rw [parts.rows] at rowsDecoded
  have sameMeta : readMeta = grid.gridMeta :=
    eq_of_decodeEntries form.1 reads.gridMeta encoded.gridMeta metaDecoded
  have sameCols : readCols = grid.cols :=
    eq_of_forall₂_read (mapM_eq_ok.mp (encodeColumns_eq grid.cols ▸ encoded.cols))
      colsDecoded columnsRead
  have sameRows : readRows = grid.rows := by
    refine eq_of_forall₂_read
      (mapM_eq_ok.mp (encodeRows_eq grid.rows ▸ encoded.rows)) rowsDecoded ?_
    intro row member json printed result read
    exact eq_of_decodeRow (form.2.2 row member) (reads.rows row member)
      printed read
  exact HGrid.ext sameMeta sameCols sameRows

/-- What is read back of scalars, dictionaries and grids is what was encoded. -/
structure Exact (layout : Layout) (holds : Kind → Prop) : Prop where
  scalar : ∀ {value result : Kind} {json : Json} {room : Nat},
    holds value → value.OwnForm → layout.encodeScalar value = .ok json →
    layout.decodeKindAt room json = .ok result → result = value
  dict : ∀ {child : Json → Except CodecError Kind}
      {tags : List (String × Kind)} {fields : List (String × Json)}
      {result : Kind},
    holds (.dict tags) → Assoc.Sorted tags → layout.ReadsBack child tags →
    layout.encodeDict tags = .ok fields →
    layout.decodeObject child fields = .ok result → result = .dict tags
  grid : ∀ {child : Json → Except CodecError Kind} {grid : HGrid}
      {fields : List (String × Json)} {result : Kind},
    holds grid.kind → grid.kind.OwnForm → layout.ReadsGridBack child grid →
    layout.encodeGridValue grid = .ok fields →
    layout.decodeObject child fields = .ok result → result = grid.kind

end Exactness

/-! ## Acceptance -/

section Acceptance

variable {child : Json → Except CodecError Kind}

/-- The child decoder accepts the values of a dictionary. -/
def Accepts
    (layout : Layout) (child : Json → Except CodecError Kind)
    (tags : List (String × Kind)) : Prop :=
  ∀ entry ∈ tags, ∀ json, layout.encodeKind entry.2 = .ok json → ∃ result, child json = .ok result

/-- The child decoder accepts the values of a grid. -/
structure AcceptsGrid (layout : Layout) (child : Json → Except CodecError Kind)
    (grid : HGrid) : Prop where
  gridMeta : layout.Accepts child grid.gridMeta
  cols : ∀ col ∈ grid.cols, layout.Accepts child col.2
  rows : ∀ row ∈ grid.rows, layout.Accepts child row

variable {fields : List (String × Json)}

theorem exists_decodeEntries (accepts : layout.Accepts child tags)
    (encoded : layout.encodeDict tags = .ok fields) :
    ∃ results, decodeEntries child fields = .ok results := by
  rw [encodeDict_eq] at encoded
  have each : ∀ field ∈ fields, ∃ result, onValue child field = .ok result := by
    intro field member
    obtain ⟨entry, listed, printed⟩ := exists_of_mem_right (mapM_eq_ok.mp encoded) member
    obtain ⟨printed, -⟩ := onValue_eq_ok.mp printed
    obtain ⟨result, read⟩ := accepts entry listed field.2 printed
    exact ⟨(field.1, result), onValue_eq_ok.mpr ⟨read, rfl⟩⟩
  obtain ⟨results, read⟩ := exists_mapM_eq_ok each
  exact ⟨Assoc.ofList results, except_map_eq_ok.mpr ⟨results, read, rfl⟩⟩

/-- Some fields of an encoded dictionary are read when all of them are. -/
theorem exists_decodeEntries_filter (keep : String × Json → Bool)
    (decoded : ∃ results, decodeEntries child fields = .ok results) :
    ∃ results, decodeEntries child (fields.filter keep) = .ok results := by
  obtain ⟨_, decoded⟩ := decoded
  obtain ⟨_, read, -⟩ := except_map_eq_ok.mp decoded
  have each : ∀ field ∈ fields.filter keep, ∃ result, onValue child field = .ok result := by
    intro field member
    exact exists_of_mem_left (mapM_eq_ok.mp read) (List.mem_of_mem_filter member)
  obtain ⟨kept, read⟩ := exists_mapM_eq_ok each
  exact ⟨Assoc.ofList kept, except_map_eq_ok.mpr ⟨kept, read, rfl⟩⟩

/-- A grid whose values are accepted is accepted. -/
theorem exists_decodeGridFields
    {column : Json → Except CodecError (String × List (String × Kind))} {gridMeta kept : List (String × Json)}
    {cols rows : List Json} (form : grid.kind.OwnForm) (accepts : layout.AcceptsGrid child grid)
    (encoded : layout.EncodedGrid grid gridMeta cols rows)
    (parts : GridParts skip fields kept cols rows)
    (metaRead : ∃ results, decodeEntries child kept = .ok results)
    (columnsRead : ∀ col ∈ grid.cols, ∀ json,
      layout.encodeColumn col = .ok json → ∃ result, column json = .ok result) :
    ∃ result, decodeGridFields skip child column fields = .ok result := by
  have colsEncoded := mapM_eq_ok.mp (encodeColumns_eq grid.cols ▸ encoded.cols)
  have rowsEncoded := mapM_eq_ok.mp (encodeRows_eq grid.rows ▸ encoded.rows)
  have readCols : ∃ read, cols.mapM column = .ok read :=
    exists_mapM_eq_ok fun json member => by
      obtain ⟨col, listed, printed⟩ := exists_of_mem_right colsEncoded member
      exact columnsRead col listed json printed
  have readRows : ∃ read, rows.mapM (decodeRow child) = .ok read :=
    exists_mapM_eq_ok fun json member => by
      obtain ⟨row, listed, printed⟩ := exists_of_mem_right rowsEncoded member
      obtain ⟨_, dict, rfl⟩ := except_map_eq_ok.mp printed
      rw [Json.ofFields, ofList_encodeDict (form.2.2 row listed) dict]
      exact exists_decodeEntries (accepts.rows row listed) dict
  obtain ⟨readMeta, metaRead⟩ := metaRead
  obtain ⟨readCols, colsRead⟩ := readCols
  obtain ⟨readRows, rowsRead⟩ := readRows
  refine ⟨⟨readMeta, readCols, readRows⟩, ?_⟩
  rw [decodeGridFields, parts.gridMeta, parts.cols, parts.rows]
  simp [decodeArray, metaRead, colsRead, rowsRead, bind, Except.bind]

/-- The levels that decoding spends on a value itself: an object takes two. -/
def ownLevels (scalar : Kind → Nat) : Kind → Nat
  | .list _ => 1
  | .dict _ => 2
  | .grid _ _ _ => 2
  | value => scalar value

/-- Scalars, dictionaries and grids are read, given the levels they take. -/
structure Accepting (layout : Layout) (holds : Kind → Prop)
    (scalarLevels : Kind → Nat) : Prop where
  scalar : ∀ {value : Kind} {json : Json} {room : Nat},
    holds value → value.OwnForm → layout.encodeScalar value = .ok json →
    scalarLevels value ≤ room →
    ∃ result, layout.decodeKindAt room json = .ok result
  /-- Only scalars are encoded as such. -/
  isScalar : ∀ {value : Kind} {json : Json},
    layout.encodeScalar value = .ok json →
    ownLevels scalarLevels value = scalarLevels value
  dict : ∀ {child : Json → Except CodecError Kind}
      {tags : List (String × Kind)} {fields : List (String × Json)},
    holds (.dict tags) → layout.Accepts child tags →
    layout.encodeDict tags = .ok fields →
    ∃ result, layout.decodeObject child fields = .ok result
  grid : ∀ {child : Json → Except CodecError Kind} {grid : HGrid}
      {fields : List (String × Json)},
    holds grid.kind → grid.kind.OwnForm → layout.AcceptsGrid child grid →
    layout.encodeGridValue grid = .ok fields →
    ∃ result, layout.decodeObject child fields = .ok result

variable {scalarLevels : Kind → Nat}

end Acceptance

/-! ## Containers -/

/-- How a layout takes dictionaries, columns and grids apart again, if they are
`plain`.  A field `skip` of the meta of a grid is not read. -/
structure Containers (layout : Layout) (plain : Kind → Prop) (skip : String)
    (readColumn : (Json → Except CodecError Kind) → Json →
      Except CodecError (String × List (String × Kind))) : Prop where
  dict : ∀ child {tags : List (String × Kind)} {fields : List (String × Json)},
    plain (.dict tags) → layout.encodeDict tags = .ok fields →
    layout.decodeObject child fields = (decodeEntries child fields).map .dict
  column : ∀ child {grid : HGrid} {col} {fields : List (String × Json)},
    plain grid.kind → col ∈ grid.cols → Assoc.Sorted fields →
    layout.encodeDict col.2 = .ok fields →
    readColumn child (layout.columnObj col.1 fields) = (decodeEntries child fields).map (col.1, ·)
  parts : ∀ {gridMeta : List (String × Json)} (cols rows : List Json), Assoc.Sorted gridMeta →
    GridParts skip (layout.gridFields gridMeta cols rows)
      (gridMeta.filter fun field => field.1 ≠ skip) cols rows
  grid : ∀ child (gridMeta : List (String × Json)) (cols rows : List Json),
    layout.decodeObject child (layout.gridFields gridMeta cols rows) =
      (decodeGridFields skip child (readColumn child) (layout.gridFields gridMeta cols rows)).map
        HGrid.kind

namespace Containers

variable {plain : Kind → Prop} {skip : String} {child : Json → Except CodecError Kind}
variable {readColumn : (Json → Except CodecError Kind) → Json →
  Except CodecError (String × List (String × Kind))}

variable (containers : layout.Containers plain skip readColumn)

include containers

/-- A grid is read back from its fields. -/
theorem eq_of_decodeGrid {result : HGrid}
    (own : plain grid.kind) (unskipped : skip ∉ grid.gridMeta.map Prod.fst)
    (form : grid.kind.OwnForm) (reads : layout.ReadsGridBack child grid)
    (encoded : layout.encodeGridValue grid = .ok fields)
    (decoded : decodeGridFields skip child (readColumn child) fields = .ok result) :
    result = grid := by
  obtain ⟨gridMeta, cols, rows, parts, rfl⟩ := encodeGridValue_eq_ok encoded
  have found := containers.parts cols rows (sorted_encodeDict form.1 parts.gridMeta)
  rw [filter_encodeDict unskipped parts.gridMeta] at found
  refine eq_of_decodeGridFields form reads parts found ?_ decoded
  intro col member json encoded result read
  obtain ⟨_, printed, rfl⟩ := except_map_eq_ok.mp encoded
  have sorted := form.2.1 col member
  rw [containers.column child own member (sorted_encodeDict sorted printed) printed] at read
  obtain ⟨_, readMeta, rfl⟩ := except_map_eq_ok.mp read
  rw [eq_of_decodeEntries sorted (reads.cols col member) printed readMeta]

/-- A layout is exact when its scalars are. -/
theorem exact (dict : ∀ {tags}, holds (.dict tags) → plain (.dict tags))
    (grid : ∀ {grid : HGrid}, holds grid.kind →
      plain grid.kind ∧ skip ∉ grid.gridMeta.map Prod.fst)
    (scalar : ∀ {value result : Kind} {json : Json} {room : Nat},
      holds value → value.OwnForm → layout.encodeScalar value = .ok json →
      layout.decodeKindAt room json = .ok result → result = value) :
    layout.Exact holds where
  scalar := scalar
  dict := by
    intro child tags fields result own sorted reads encoded decoded
    rw [containers.dict child (dict own) encoded] at decoded
    obtain ⟨_, readTags, rfl⟩ := except_map_eq_ok.mp decoded
    rw [eq_of_decodeEntries sorted reads encoded readTags]
  grid := by
    intro child _ fields result own form reads encoded decoded
    obtain ⟨_, _, _, -, rfl⟩ := encodeGridValue_eq_ok encoded
    rw [containers.grid] at decoded
    obtain ⟨_, readGrid, rfl⟩ := except_map_eq_ok.mp decoded
    rw [containers.eq_of_decodeGrid (grid own).1 (grid own).2 form reads encoded readGrid]

/-- A grid whose values are accepted is accepted. -/
theorem exists_decodeGrid
    (own : plain grid.kind) (form : grid.kind.OwnForm) (accepts : layout.AcceptsGrid child grid)
    (encoded : layout.encodeGridValue grid = .ok fields) :
    ∃ result, decodeGridFields skip child (readColumn child) fields = .ok result := by
  obtain ⟨gridMeta, cols, rows, parts, rfl⟩ := encodeGridValue_eq_ok encoded
  refine exists_decodeGridFields form accepts parts
    (containers.parts cols rows (sorted_encodeDict form.1 parts.gridMeta))
    (exists_decodeEntries_filter _ (exists_decodeEntries accepts.gridMeta parts.gridMeta)) ?_
  intro col member json encoded
  obtain ⟨_, printed, rfl⟩ := except_map_eq_ok.mp encoded
  obtain ⟨_, read⟩ := exists_decodeEntries (accepts.cols col member) printed
  rw [containers.column child own member (sorted_encodeDict (form.2.1 col member) printed)
    printed, read]
  exact ⟨_, rfl⟩

/-- A layout accepts what it encodes when it does so for scalars. -/
theorem accepting (plainly : ∀ {value}, holds value → plain value) {scalarLevels : Kind → Nat}
    (scalar : ∀ {value : Kind} {json : Json} {room : Nat},
      holds value → value.OwnForm → layout.encodeScalar value = .ok json →
      scalarLevels value ≤ room → ∃ result, layout.decodeKindAt room json = .ok result)
    (isScalar : ∀ {value : Kind} {json : Json}, layout.encodeScalar value = .ok json →
      ownLevels scalarLevels value = scalarLevels value) :
    layout.Accepting holds scalarLevels where
  scalar := scalar
  isScalar := isScalar
  dict := by
    intro child tags fields own accepts encoded
    obtain ⟨_, read⟩ := exists_decodeEntries accepts encoded
    rw [containers.dict child (plainly own) encoded, read]
    exact ⟨_, rfl⟩
  grid := by
    intro child grid fields own form accepts encoded
    obtain ⟨_, read⟩ := containers.exists_decodeGrid (plainly own) form accepts encoded
    obtain ⟨_, _, _, -, rfl⟩ := encodeGridValue_eq_ok encoded
    rw [containers.grid, read]
    exact ⟨_, rfl⟩

end Containers
end Layout
end Codecs
end Haystack
