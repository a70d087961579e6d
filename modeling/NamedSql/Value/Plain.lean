import NamedSql.Value

/-!
# Plain values

The values of databases that know only NULL, integers, floating point numbers, texts and bytes.
-/

namespace NamedSql.Value

/-- A value as such a database stores it: truth values are numbers, and dates, timestamps and
documents are written out. -/
def plain : Value → Value
  | .boolean b => .integer (if b then 1 else 0)
  | .date d => .text (String.ofList d.render)
  | .timestamp t => .text (String.ofList t.render)
  | .json j => .text (String.ofList j.render)
  | v => v

end NamedSql.Value
