import Phrasebook.Resolution

/-!
# Registry — the catalogs of a program at run time

A registry holds one catalog for each locale, and a translator is bound to one of them.
-/

namespace Phrasebook

/-- The catalogs by locale. -/
structure Registry where
  catalogs : List (String × Catalog)
  distinct : (Fields.names catalogs).Nodup

/-- A locale with its catalog. -/
structure Translator where
  locale : String
  catalog : Catalog

namespace Registry

/-- The registry without locales. -/
def empty : Registry := ⟨[], List.nodup_nil⟩

/-- Sets the catalog of a locale. -/
def insert (registry : Registry) (locale : String) (catalog : Catalog) : Registry :=
  ⟨Fields.put locale catalog registry.catalogs, Fields.nodup_names_put registry.distinct⟩

/-- The locales that have a catalog. -/
def locales (registry : Registry) : List String := Fields.names registry.catalogs

/-- The translator of a locale. -/
def translator (registry : Registry) (locale : String) : Except Error Translator :=
  match Fields.get? locale registry.catalogs with
  | some catalog => .ok ⟨locale, catalog⟩
  | none => .error (.unknownLocale locale)

end Registry

namespace Translator

/-- The text of a scalar call site in the translator's locale. -/
def tr (translator : Translator) (template : Template) (arguments : List String) :
    Except Error String :=
  translator.catalog.resolveScalar template arguments

/-- The text of a plural call site in the translator's locale. -/
def trPlural (translator : Translator) (template : Template) (count : Int)
    (arguments : List String) : Except Error Catalog.PluralText :=
  translator.catalog.resolvePlural template count arguments

end Translator

end Phrasebook
