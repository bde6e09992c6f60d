import KextManager.Basic
import KextManager.Chain
import KextManager.Relationships
import KextManager.Build
import KextManager.Resolve
import KextManager.Coherence
import KextManager.Lookup
import KextManager.Prepare
import KextManager.Load
import KextManager.Gate
import KextManager.Session
import KextManager.Window
import KextManager.Query
import KextManager.RepositoryList
import KextManager.Personalities
import KextManager.CacheFile
import KextManager.Registry
import KextManager.Runs
