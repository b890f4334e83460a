import LeanDataway.NetUrl
import LeanDataway.NetUrlParse
import LeanDataway.NetUrlQuery
import LeanDataway.NetUrlReparse
import LeanDataway.NetHttp
import LeanDataway.Endpoint
import LeanDataway.Write
import LeanDataway.CategoryURL
import LeanDataway.WriteCache
import LeanDataway.WriteRequest
import LeanDataway.Quota
import LeanDataway.QuotaConcurrent
import LeanDataway.Pull
